import Interpose.Session.Body
import Interpose.Code.Builder
import Interpose.Generate.Definition

/-!
# Reading code

Code is given as a list of calls of a builder, with labels by name, or as its instructions and
constants. Class definitions hold code for each constructor and method.
-/

namespace Interpose.Command

/-- The static slot that a word names. -/
def staticSlot (t : Tree) : Command StaticSlot := do
  match ← str t with
  | "dispatcher" => return .dispatcher
  | "operations" => return .operations
  | other => malformed other

/-- The word for a static slot. -/
def staticSlotWord : StaticSlot → String
  | .dispatcher => "dispatcher"
  | .operations => "operations"

/-- A word of sixteen bits. -/
def word16 (t : Tree) : Command UInt16 := return UInt16.ofNat (← nat t)

/-- A word of thirty-two bits. -/
def word32 (t : Tree) : Command UInt32 := return UInt32.ofNat (← nat t)

/-- An `int`. -/
def int32 (t : Tree) : Command Int32 := return Int32.ofInt (← int t)

/-- The operation at a position of a type. -/
def methodAt (type index : Tree) : Command Method := do
  nth (← hostType (← typeNamed (← str type))).methods (← nat index)

/-- The constructor at a position of a type. -/
def ctorAt (type index : Tree) : Command Constructor := do
  nth (← hostType (← typeNamed (← str type))).constructors (← nat index)

/-- A builder with the labels named so far. -/
structure Building where
  builder : CodeBuilder
  labels : List (String × Nat)

namespace Building

/-- The label of a name, which is defined when it is first mentioned. -/
def label (s : Building) (name : String) : Nat × Building :=
  match s.labels.lookup name with
  | some l => (l, s)
  | none =>
    let (l, b) := s.builder.defineLabel
    (l, ⟨b, (name, l) :: s.labels⟩)

/-- Adds a branch to the label of a name. -/
def branch (s : Building) (make : UInt32 → Instr) (name : String) : Building :=
  let (l, s) := s.label name
  { s with builder := s.builder.emitBranch make l }

/-- Marks the label of a name. -/
def mark (s : Building) (name : String) : Building :=
  let (l, s) := s.label name
  { s with builder := s.builder.markLabel l }

end Building

/-- A step of a builder that mentions no label. -/
def plainStep (op : String) (a b : Tree) (c : CodeBuilder) : Command CodeBuilder := do
  match op with
  | "load" => return c.load (← word16 a)
  | "load_param" => return c.load (CodeBuilder.param (← nat a))
  | "store" => return c.emit (.store (← word16 a))
  | "load_all" => return c.loadAll (← nat a)
  | "declare_local" => return c.declareLocal
  | "push_int" => return c.pushInt (← int32 a)
  | "push_str" => return c.pushStr (← str a)
  | "push_null" => return c.emit .null
  | "dup" => return c.emit .dup
  | "pop" => return c.emit .pop
  | "get_static" => return c.emit (.getStatic (← staticSlot a))
  | "get_field" => return c.getField (← str a)
  | "put_field" => return c.putField (← str a)
  | "new_array" => return c.emit .newArray
  | "array_load" => return c.emit .arrayLoad
  | "array_store" => return c.emit .arrayStore
  | "box" => return c.emit (.box (← kind a))
  | "unbox" => return c.emit (.unbox (← kind a))
  | "check_cast" => return c.checkCast (← valueType a)
  | "invoke_super" => return c.invokeSuper (← methodAt a b)
  | "invoke_super_ctor" => return c.invokeSuperCtor (← ctorAt a b)
  | "invoke_dispatch" => return c.emit .invokeDispatch
  | "new_throwable" => return c.newThrowable (← exception a b)
  | "throw" => return c.emit .throw
  | "ret" => return c.emit .ret
  | "ret_void" => return c.emit .retVoid
  | "ret_as" => return c.retAs (← valueType a)
  | other => malformed other

/-- Repeats a step. -/
def times {σ : Type} (f : σ → Command σ) : Nat → σ → Command σ
  | 0, s => return s
  | n + 1, s => do times f n (← f s)

/-- The steps of a builder. -/
def buildWithin : Nat → List Tree → Building → Command Building
  | 0, _, _ => malformed "code"
  | depth + 1, calls, s =>
    calls.foldlM
      (fun s call => do
        let a := call.item 1
        match ← str (call.item 0) with
        | "label" => return s.mark (← str a)
        | "if_null" => return s.branch .ifNull (← str a)
        | "if_non_null" => return s.branch .ifNonNull (← str a)
        | "jump" => return s.branch .jump (← str a)
        | "repeat" => times (buildWithin depth (call.item 2).items) (← nat a) s
        | op => return { s with builder := ← plainStep op a (call.item 2) s.builder })
      s

/-- An instruction. -/
def instr (t : Tree) : Command Instr := do
  let a := t.item 1
  match ← str (t.item 0) with
  | "load" => return .load (← word16 a)
  | "store" => return .store (← word16 a)
  | "const" => return .const (← word16 a)
  | "null" => return .null
  | "get_static" => return .getStatic (← staticSlot a)
  | "get_field" => return .getField (← word16 a)
  | "put_field" => return .putField (← word16 a)
  | "new_array" => return .newArray
  | "array_load" => return .arrayLoad
  | "array_store" => return .arrayStore
  | "box" => return .box (← kind a)
  | "unbox" => return .unbox (← kind a)
  | "check_cast" => return .checkCast (← word16 a)
  | "if_null" => return .ifNull (← word32 a)
  | "if_non_null" => return .ifNonNull (← word32 a)
  | "jump" => return .jump (← word32 a)
  | "invoke_super" => return .invokeSuper (← word16 a)
  | "invoke_super_ctor" => return .invokeSuperCtor (← word16 a)
  | "invoke_dispatch" => return .invokeDispatch
  | "new_throwable" => return .newThrowable (← word16 a)
  | "throw" => return .throw
  | "return" => return .ret
  | "return_void" => return .retVoid
  | "dup" => return .dup
  | "pop" => return .pop
  | other => malformed other

/-- An instruction as a tree, in the form in which it is read. -/
def instrTree : Instr → Tree
  | .load n => op "load" [word n]
  | .store n => op "store" [word n]
  | .const c => op "const" [word c]
  | .null => op "null" []
  | .getStatic slot => op "get_static" [.str (staticSlotWord slot)]
  | .getField c => op "get_field" [word c]
  | .putField c => op "put_field" [word c]
  | .newArray => op "new_array" []
  | .arrayLoad => op "array_load" []
  | .arrayStore => op "array_store" []
  | .box k => op "box" [.str k.keyword]
  | .unbox k => op "unbox" [.str k.keyword]
  | .checkCast c => op "check_cast" [word c]
  | .ifNull t => op "if_null" [.nat t.toNat]
  | .ifNonNull t => op "if_non_null" [.nat t.toNat]
  | .jump t => op "jump" [.nat t.toNat]
  | .invokeSuper c => op "invoke_super" [word c]
  | .invokeSuperCtor c => op "invoke_super_ctor" [word c]
  | .invokeDispatch => op "invoke_dispatch" []
  | .newThrowable c => op "new_throwable" [word c]
  | .throw => op "throw" []
  | .ret => op "return" []
  | .retVoid => op "return_void" []
  | .dup => op "dup" []
  | .pop => op "pop" []
where
  /-- An operator with operands. -/
  op (name : String) (operands : List Tree) : Tree := .list (.str name :: operands)
  /-- A word as a tree. -/
  word (v : UInt16) : Tree := .nat v.toNat

/-- A constant. -/
def constant (t : Tree) : Command Constant := do
  let part (name : String) (i : Nat) : Tree := (t.field name).item i
  if t.has "int" then return .int (← int32 (t.field "int"))
  else if t.has "str" then return .str (← strOf t "str")
  else if t.has "field" then return .field (← strOf t "field")
  else if t.has "type" then return .type (← valueTypeOf t "type")
  else if t.has "method" then return .method (← methodAt (part "method" 0) (part "method" 1))
  else if t.has "ctor" then return .ctor (← ctorAt (part "ctor" 0) (part "ctor" 1))
  else return .throwable (← exception (part "throwable" 0) (part "throwable" 1))

/-- A constant as a tree. -/
def constantTree : Constant → Tree
  | .int v => .node [("int", .int v.toInt)]
  | .str s => .node [("str", .str s)]
  | .field f => .node [("field", .str f)]
  | .type t => .node [("type", .str t.text)]
  | .method m => .node [("method", .str m.text)]
  | .ctor c => .node [("ctor", .str c.text)]
  | .throwable e => .node [("throwable", .str e.text)]

/-- Code for a body of a name with a number of parameters. -/
def code (name : String) (params : Nat) (t : Tree) : Command Code := do
  match t with
  | .list calls =>
    let s ← buildWithin t.depth calls ⟨.start name params, []⟩
    ofExcept .emit s.builder.finish
  | _ =>
    let instrs ← (t.itemsOf "instrs").mapM instr
    let constants ← (t.itemsOf "constants").mapM constant
    return ⟨name, ← word16 (t.field "arity"), ← word16 (t.field "locals"), instrs.toArray,
      constants.toArray⟩

/-- The constructors that a class definition holds. -/
def ctorDefsOf (t : Tree) (owner : String) : Command (List CtorDef) :=
  (t.itemsOf "ctors").mapM fun c => do
    let params ← valueTypesOf c "params"
    let mods ← modifiersOf c "mods"
    let body := owner ++ ".<init>" ++ signatureDescriptor params .void
    return ⟨params, mods, ← code body params.length (c.field "code")⟩

/-- The methods that a class definition holds. -/
def methodDefsOf (t : Tree) (owner : String) : Command (List MethodDef) :=
  (t.itemsOf "methods").mapM fun m => do
    let name ← strOf m "name"
    let params ← valueTypesOf m "params"
    let returns ← valueTypeOf m "returns"
    let mods ← modifiersOf m "mods"
    let body := owner ++ "." ++ name ++ signatureDescriptor params returns
    return ⟨name, params, returns, mods, ← code body params.length (m.field "code")⟩

/-- The generation record that a class definition holds. -/
def generationDefOf (t : Tree) : Command (Option GenerationDef) := do
  match t.given? "generated" with
  | none => return none
  | some g =>
    let role : Role := if g.strOf? "role" = some "proxy" then .proxy else .bridge
    return some ⟨role, ← typeOf g "base", ← (g.itemsOf "operations").mapM methodOf,
      ← typesOf g "requested"⟩

/-- A class definition. Its bodies are built, the constructors first, before the types that it names
are looked up. -/
def classDef (t : Tree) : Command ClassDef := do
  let name ← strOf t "name"
  let ctors ← ctorDefsOf t name
  let methods ← methodDefsOf t name
  let generated ← generationDefOf t
  let modifiers ← modifiersOf t "mods"
  let superclass ← typeOf t "superclass"
  let interfaces ← typesOf t "interfaces"
  let fields ← fieldsOf t
  return ⟨name, modifiers, superclass, interfaces, fields, ctors, methods, generated⟩

end Interpose.Command
