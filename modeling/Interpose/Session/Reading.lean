import Interpose.Session.Basic

/-!
# Reading values and references

The fields of commands: numbers, types, modifiers, values, slots, and references to what is kept
under names.
-/

namespace Interpose.Command

/-- The text of a tree. -/
def str (t : Tree) : Command String :=
  match t.str? with
  | some s => return s
  | none => malformed "text"

/-- The number of a tree. -/
def int : Tree → Command Int
  | .int n => return n
  | _ => malformed "number"

/-- The number of a tree, which is not negative. -/
def nat (t : Tree) : Command Nat := return (← int t).toNat

/-- The text in a field. -/
def strOf (t : Tree) (name : String) : Command String := str (t.field name)

/-- The number in a field, which is not negative. -/
def natOf (t : Tree) (name : String) : Command Nat := nat (t.field name)

/-- The type that a field names. -/
def typeOf (t : Tree) (name : String) : Command TypeId := do typeNamed (← strOf t name)

/-- The types that a field lists. -/
def typesOf (t : Tree) (name : String) : Command (List TypeId) :=
  (t.itemsOf name).mapM fun x => do typeNamed (← str x)

/-- The loader that a field names, or the root. -/
def loaderOf (t : Tree) (name : String) : Command Loader := do
  match t.given? name with
  | none => return .system
  | some x => loaderNamed (← str x)

/-- The platform that a command is for. -/
def platformOf (t : Tree) : Command PlatformId := do
  match t.given? "on" with
  | none => return (← world).mainPlatform
  | some x => lookup "platform" (·.platforms) (← str x)

/-- The subtype that a field names. -/
def subtypeOf (t : Tree) (name : String) : Command TypeId := do
  lookup "subtype" (·.subtypes) (← strOf t name)

/-- The script object that a field names. -/
def instanceOf (t : Tree) : Command InstanceId := do
  lookup "instance" (·.instances) (← strOf t "instance")

/-- The script type that a field names. -/
def scriptOf (t : Tree) : Command ScriptType := do
  lookup "script" (·.scripts) (← strOf t "script")

/-- A type in source form, or as a node that names a reference type or an element type. -/
def valueTypeWithin : Nat → Tree → Command ValueType
  | 0, _ => malformed "type"
  | depth + 1, t =>
    match t with
    | .str s => return .ofText s
    | _ =>
      match t.given? "object", t.given? "array" with
      | some name, _ => return .reference (← str name)
      | none, some element => return .array (← valueTypeWithin depth element)
      | none, none => malformed "type"

/-- A type. -/
def valueType (t : Tree) : Command ValueType := valueTypeWithin t.depth t

/-- The type in a field. -/
def valueTypeOf (t : Tree) (name : String) : Command ValueType := valueType (t.field name)

/-- The types in a field. -/
def valueTypesOf (t : Tree) (name : String) : Command (List ValueType) :=
  (t.itemsOf name).mapM valueType

/-- The modifiers that a field lists. -/
def modifiersOf (t : Tree) (name : String) : Command Modifiers :=
  (t.itemsOf name).foldlM
    (fun m x => do
      match Modifiers.ofWord? (← str x) with
      | some n => return m ||| n
      | none => malformed "modifier")
    Modifiers.none

/-- The kind that a word names. -/
def kind (t : Tree) : Command Kind := do
  match Kind.ofKeyword? (← str t) with
  | some k => return k
  | none => malformed "kind"

/-- The number that digits in base sixteen stand for. -/
def hexadecimal (s : String) : Nat :=
  s.toList.foldl
    (fun n c => 16 * n + if c.isDigit then c.toNat - '0'.toNat else c.toNat - 'a'.toNat + 10) 0

/-- The number that decimal digits stand for. -/
def decimal (s : String) : Int :=
  match s.toList with
  | '-' :: digits => -((String.ofList digits).toNat?.getD 0 : Nat)
  | _ => (s.toNat?.getD 0 : Nat)

/-- How a primitive of a kind is read. -/
def primitiveOf (t : Tree) : Kind → Command Primitive
  | .boolean =>
    match t with
    | .bool b => return .boolean b
    | _ => malformed "boolean"
  | .byte => return .byte (Int8.ofInt (← int t))
  | .char => return .char (UInt16.ofNat (← nat t))
  | .short => return .short (Int16.ofInt (← int t))
  | .int => return .int (Int32.ofInt (← int t))
  | .long => return .long (Int64.ofInt (decimal (← str t)))
  | .float => return .float (UInt32.ofNat (hexadecimal (← str t)))
  | .double => return .double (UInt64.ofNat (hexadecimal (← str t)))

/-- The primitive that a node stands for, if its field is named by a kind. -/
def primitive? (t : Tree) : Command (Option Primitive) := do
  match Kind.all.find? fun k => t.has k.keyword with
  | some k => return some (← primitiveOf (t.field k.keyword) k)
  | none => return none

/-- The primitive that a node stands for. -/
def primitive (t : Tree) : Command Primitive := do
  match ← primitive? t with
  | some p => return p
  | none => malformed "primitive"

/-- The exception class that a text stands for. -/
def exceptionKind (text : String) : ExceptionKind :=
  if text = "unsupported" then .unsupportedOperation
  else if text = "illegal_state" then .illegalState
  else if text = "illegal_argument" then .illegalArgument
  else
    match Text.after? "checked:" text, Text.after? "unchecked:" text with
    | some name, _ => .custom name true
    | none, some name => .custom name false
    | none, none => .custom text false

/-- An exception of a class with a message. -/
def exception (kind message : Tree) : Command HostException := do
  return ⟨exceptionKind (← str kind), ← str message⟩

/-- A value as it is written down. -/
def literalWithin : Nat → Tree → Command Literal
  | 0, _ => malformed "value"
  | depth + 1, t => do
    match t with
    | .null => return .value .null
    | .str s => return .value (.str s)
    | _ =>
      match ← primitive? t with
      | some p => return .value (.prim p)
      | none =>
        if t.has "void" then return .value .void
        else if t.has "boxed" then return .value (.boxed (← primitive (t.field "boxed")))
        else if t.has "array" then
          return .array (← (t.itemsOf "array").mapM (literalWithin depth))
        else if t.has "operation" then return .value (.operation (← natOf t "operation"))
        else if t.has "throwable" then
          let e := t.field "throwable"
          return .throwable (← exception (e.item 0) (e.item 1))
        else if t.has "foreign" then
          match t.given? "foreign" with
          | some name => return .interpreter (← str name)
          | none => return .token
        else if t.has "dispatcher" then return .dispatcher (← strOf t "dispatcher")
        else if t.has "ref" then return .ref (← strOf t "ref")
        else malformed "value"

/-- A value as it is written down. -/
def literal (t : Tree) : Command Literal := literalWithin t.depth t

mutual

/-- Refuses a literal with a name under which nothing is kept. -/
def checkNames : Literal → Command Unit
  | .array ls => checkAllNames ls
  | .interpreter name => do
    let _ ← lookup "instance" (·.instances) name
  | .dispatcher name => do
    let _ ← lookup "dispatcher" (·.dispatchers) name
  | .ref name => do
    let names := (← world).names
    if (names.values.get? name).isNone && (names.instances.get? name).isNone then
      unset "variable"
  | .value _ | .throwable _ | .token => return ()

/-- Refuses literals with a name under which nothing is kept. -/
def checkAllNames : List Literal → Command Unit
  | [] => return ()
  | l :: rest => do
    checkNames l
    checkAllNames rest

end

/-- The value of a literal. -/
def evaluate (l : Literal) : Command Value := do
  checkNames l
  run (World.evaluate l)

/-- A value. -/
def value (t : Tree) : Command Value := do evaluate (← literal t)

/-- The value in a field. -/
def valueOf (t : Tree) (name : String) : Command Value := value (t.field name)

/-- The arguments of a command. -/
def argsOf (t : Tree) : Command (List Value) := (t.itemsOf "args").mapM value

/-- The object that a field names. -/
def objectOf (t : Tree) (name : String) : Command ObjectRef := do
  match ← evaluate (.ref (← strOf t name)) with
  | .object o => return o
  | _ => malformed "object"

/-- The slot that the fields of a tree describe. -/
def slot (t : Tree) : Command Slot := do
  return ⟨← strOf t "name", ← valueTypeOf t "returns", ← valueTypesOf t "params"⟩

/-- The operations of a generated type's table. -/
def operationsOf (t : HostType) : List Method := (t.generated.map (·.operations)).getD []

/-- The operation at a position of a type or of a subtype's table. -/
def methodOf (t : Tree) : Command Method := do
  if t.has "subtype" then
    nth (operationsOf (← hostType (← subtypeOf t "subtype"))) (← natOf t "index")
  else nth (← hostType (← typeOf t "type")).methods (← natOf t "index")

/-- The key of a registry that the fields of a tree describe. -/
def key (t : Tree) : Command CacheKey := do
  let loader ← loaderOf t "loader"
  let base ← typeOf t "base"
  let interfaces ← typesOf t "interfaces"
  let properties ← typesOf t "properties"
  return .of base interfaces properties loader

end Interpose.Command
