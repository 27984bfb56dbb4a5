import Interpose.Signature.ValueType

/-!
# Values

The values that flow through operations, as first-order data: whatever is shared and can change is
named by its identity, so equality of values is sameness of identity for those and of contents for
the rest.
-/

namespace Interpose

/-- The identity of a type. -/
structure TypeId where
  index : Nat
deriving DecidableEq, Repr, Inhabited

/-- The identity of the root class, which is declared before any other type. -/
def TypeId.root : TypeId := ⟨0⟩

/-- The identity of the capability interface, which is declared right after the root class. -/
def TypeId.capability : TypeId := ⟨1⟩

/-- The identity of a mutable array. -/
structure ArrayId where
  index : Nat
deriving DecidableEq, Repr, Inhabited

/-- The identity of a script object. -/
structure InstanceId where
  index : Nat
deriving DecidableEq, Repr, Inhabited

/-- The identity of a receiver of intercepted calls. -/
structure DispatcherId where
  index : Nat
deriving DecidableEq, Repr, Inhabited

/-- An object: its identity and the class it was allocated from. -/
structure ObjectRef where
  index : Nat
  cls : TypeId
deriving DecidableEq, Repr, Inhabited

/-- The class of an exception. -/
inductive ExceptionKind where
  | unsupportedOperation
  | illegalState
  | illegalArgument
  /-- Any other class, by name; callers have to declare the checked ones. -/
  | custom (className : String) (checked : Bool)
deriving DecidableEq, Repr, Inhabited

/-- The name of an exception class. -/
def ExceptionKind.className : ExceptionKind → String
  | unsupportedOperation => "host.lang.UnsupportedOperationException"
  | illegalState => "host.lang.IllegalStateException"
  | illegalArgument => "host.lang.IllegalArgumentException"
  | custom name _ => name

/-- Whether callers have to declare an exception class. -/
def ExceptionKind.isChecked : ExceptionKind → Bool
  | custom _ checked => checked
  | _ => false

/-- An exception with its detail message. -/
structure HostException where
  kind : ExceptionKind
  message : String
deriving DecidableEq, Repr, Inhabited

/-- The class and the message of an exception. -/
def HostException.text (e : HostException) : String := e.kind.className ++ ": " ++ e.message

/-- Something that only the embedding program can look into. -/
inductive Handle where
  | interpreter (id : InstanceId)
  | token (index : Nat)
deriving DecidableEq, Repr, Inhabited

/-- A value. Primitives are raw in typed slots and boxed where any value may stand. -/
inductive Value where
  | void
  | null
  | prim (p : Primitive)
  | boxed (p : Primitive)
  | str (text : String)
  | object (o : ObjectRef)
  | array (id : ArrayId)
  | dispatcher (id : DispatcherId)
  /-- An entry of an operation table. -/
  | operation (index : Nat)
  /-- An exception that was made but not raised; `index` is its identity. -/
  | throwable (index : Nat) (e : HostException)
  | foreign (handle : Handle)
deriving DecidableEq, Inhabited

namespace Value

/-- A raw truth value. -/
def ofBool (b : Bool) : Value := prim (.boolean b)

/-- A raw `int`. -/
def ofInt32 (v : Int32) : Value := prim (.int v)

/-- The primitive that a value holds, raw or boxed. -/
def primitive? : Value → Option Primitive
  | prim p => some p
  | boxed p => some p
  | _ => none

/-- The `int` that a value holds, raw or boxed. -/
def int32? (v : Value) : Option Int32 :=
  match v.primitive? with
  | some (.int i) => some i
  | _ => none

/-- The text that a value is. -/
def str? : Value → Option String
  | str s => some s
  | _ => none

/-- The object that a value is. -/
def object? : Value → Option ObjectRef
  | object o => some o
  | _ => none

/-- A value with a raw primitive put into its box. -/
def box : Value → Value
  | prim p => boxed p
  | v => v

/-- A value with a boxed primitive taken out of its box. -/
def unboxed : Value → Value
  | boxed p => prim p
  | v => v

@[simp] theorem box_box (v : Value) : v.box.box = v.box := by cases v <;> rfl

/-- The initial value of a slot of a type. -/
def default : ValueType → Value
  | .void => void
  | .primitive k => prim (.zero k)
  | .reference _ => null
  | .array _ => null

end Value

end Interpose
