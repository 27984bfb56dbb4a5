import Interpose.Primitive.Text
import Interpose.Host.Program
import Interpose.Script.Types

/-!
# Expressions

A small language for bodies, which are run as native bodies, as functions of scripts or as
dispatchers. Operands are evaluated from left to right, and an error ends the body. The values of
the operands of an expression are held until the last of them is there, and that of a condition
while what depends on it is evaluated.
-/

namespace Interpose

/-- An expression. -/
inductive Expr where
  | literal (l : Literal)
  /-- An argument, or null if there are not that many. -/
  | arg (i : Nat)
  | argCount
  | args
  | this
  /-- All in order; the value is that of the last. -/
  | seq (es : List Expr)
  | log (e : Expr)
  | get (name : String)
  | set (name : String) (e : Expr)
  | call (name : String) (es : List Expr)
  | callOn (receiver : Expr) (name : String) (es : List Expr)
  /-- What an operation overrides; a dispatcher means the operation it was called for. -/
  | overridden (name : Option String) (es : List Expr)
  | operation
  | throw (e : HostException)
  | fail (message : String)
  /-- The value, or the wording of the error that it ends with. -/
  | attempt (e : Expr)
  | ite (condition yes : Expr) (no : Option Expr)
  | eq (a b : Expr)
  | add (a b : Expr)
  | concat (es : List Expr)
  | box (e : Expr)
  | typeName (e : Expr)
  | isConstructing
  | isActive
  | isBound
  | bind (name : String)
  | extend (script name : String)
  | construct (type : String) (es : List Expr)
deriving Inhabited

/-- What a body is run as. -/
inductive BodyContext where
  | native
  | script (id : InstanceId)
  | dispatch (operation : Nat)

/-- What a body is given. -/
structure Scope where
  this : ObjectRef
  args : List Value
  context : BodyContext

/-- The text of a value, given the name of what it is. -/
def Value.textOr (v : Value) (typeName : String) : String :=
  match v, v.primitive? with
  | .str s, _ => s
  | _, some p => p.literal
  | _, none => typeName

namespace Program

/-- Goes on with the text of a value. -/
def withText (v : Value) (next : String → Program) : Program :=
  need [] (.typeName v) fun
    | .str name => next (v.textOr name)
    | _ => next (v.textOr "")

/-- Goes on with a text and the texts of values after it. -/
def withTexts (vs : List Value) (text : String) (next : String → Program) : Program :=
  match vs with
  | [] => next text
  | v :: rest => withText v fun t => withTexts rest (text ++ t) next

end Program

namespace Expr

/-- The `int` of a value, zero if it is none. -/
def intOr0 (v : Value) : Int32 := v.int32?.getD 0

mutual

/-- What an expression does before going on with its value, while other values are held. -/
def eval (s : Scope) (held : List Value) : Expr → (Value → Program) → Program
  | .literal l, k => .need held (.evaluate l) k
  | .arg i, k => k (s.args[i]?.getD .null)
  | .argCount, k => k (.ofInt32 (Int32.ofNat s.args.length))
  | .args, k => .need held (.newArray s.args) k
  | .this, k => k (.object s.this)
  | .seq es, k => evalAll s held es fun vs => k (vs.getLast?.getD .void)
  | .log e, k => eval s held e fun v => .withText v fun text => .need held (.log text) k
  | .get name, k =>
    match s.context with
    | .script id => .need held (.getProperty id name) k
    | _ => .need held (.getField s.this name) k
  | .set name e, k => eval s held e fun v =>
    match s.context with
    | .script id => .need held (.setProperty id name v) k
    | _ => .need held (.setField s.this name v) k
  | .call name es, k => evalAll s held es fun vs => .need held (.call s.this name vs) k
  | .callOn receiver name es, k => eval s held receiver fun v =>
    match v with
    | .object o => evalAll s (v :: held) es fun vs => .need held (.call o name vs) k
    | v => .need held (.typeName v) fun
      | .str found => .fail (.nullPointer ("callon " ++ found))
      | _ => .fail (.nullPointer "callon")
  | .overridden name es, k => evalAll s held es fun vs =>
    match s.context, name with
    | .script id, some name => .need held (.overridden id name vs) k
    | .dispatch n, _ => .need held (.overriddenAt s.this n s.args) k
    | _, _ => .fail (.noSuchMethod "original")
  | .operation, k =>
    match s.context with
    | .dispatch n => k (.operation n)
    | _ => k .null
  | .throw e, _ => .fail (.ofException e)
  | .fail message, _ => .fail (.script ⟨message⟩)
  | .attempt e, k => (eval s held e .done).attempt fun
    | .ok v => k v
    | .error e => k (.str e.message)
  | .ite condition yes no, k => eval s held condition fun v =>
    if v = .ofBool true then eval s (v :: held) yes k
    else
      match no with
      | some e => eval s (v :: held) e k
      | none => k .null
  | .eq a b, k => eval s held a fun v => eval s (v :: held) b fun w => k (.ofBool (v == w))
  | .add a b, k => eval s held a fun v => eval s (v :: held) b fun w =>
    k (.ofInt32 (intOr0 v + intOr0 w))
  | .concat es, k => evalAll s held es fun vs => .withTexts vs "" fun text => k (.str text)
  | .box e, k => eval s held e fun v => k v.box
  | .typeName e, k => eval s held e fun v => .need held (.typeName v) k
  | .isConstructing, k => .need held (.isConstructing s.this) k
  | .isActive, k => .need held .isActive k
  | .isBound, k => .need held (.isBound s.this) k
  | .bind name, k => .need held (.bind s.this name) k
  | .extend script name, k => .need held (.extend script name) k
  | .construct type es, k => evalAll s held es fun vs => .need held (.construct type [] vs) k

/-- What expressions do before going on with their values, which are held until then. -/
def evalAll (s : Scope) (held : List Value) : List Expr → (List Value → Program) → Program
  | [], k => k []
  | e :: rest, k => eval s held e fun v => evalAll s (v :: held) rest fun vs => k (v :: vs)

end

/-- An expression as a native body. -/
def native (e : Expr) : NativeBody := fun this args => eval ⟨this, args, .native⟩ [] e .done

/-- An expression as a function of a script. -/
def script (e : Expr) : ScriptBody := fun id this args => eval ⟨this, args, .script id⟩ [] e .done

/-- An expression as a dispatcher. -/
def dispatcher (e : Expr) (this : ObjectRef) (operation : Nat) (args : List Value) : Program :=
  eval ⟨this, args, .dispatch operation⟩ [] e .done

end Expr

end Interpose
