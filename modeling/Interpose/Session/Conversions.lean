import Interpose.Session.Keeping
import Interpose.Session.Refusals
import Interpose.Harvest.Interception

/-!
# Commands on kinds, types and values

Each command reads its fields and answers with a tree.
-/

namespace Interpose.Command

/-! ## Types and kinds -/

/-- A type in source form, its descriptor and its default value. -/
def describeType (t : Tree) : Command Tree := do
  let type ← valueTypeOf t "type"
  return .node [("display", .str type.text), ("descriptor", .str type.descriptor),
    ("void", .bool type.isVoid), ("primitive", .opt (type.kind?.map (·.keyword))),
    ("default", ← valueTree (Value.default type))]

/-- The descriptor of a signature. -/
def describeSignature (t : Tree) : Command Tree := do
  let params ← valueTypesOf t "params"
  return .str (signatureDescriptor params (← valueTypeOf t "returns"))

/-- A kind of primitives. -/
def describeKind (t : Tree) : Command Tree := do
  let k ← kind (t.field "kind")
  return .node [("descriptor", .str (ValueType.primitive k).descriptor),
    ("boxed", .str k.boxName), ("zero", primitiveTree (.zero k)), ("index", .nat k.index)]

/-- The kind whose box class has a name. -/
def unboxedKind (t : Tree) : Command Tree := do
  return .opt ((Kind.ofBoxName? (← strOf t "name")).map (·.keyword))

/-- The name of the accessor of an operation. -/
def accessorName (t : Tree) : Command Tree := do
  let name ← strOf t "name"
  return .str (Naming.accessor name (← valueTypeOf t "returns"))

/-- The names of the layers generated for a class of a name. -/
def generatedName (t : Tree) : Command Tree := do
  let name ← strOf t "name"
  return .node [("bridge", .str (Naming.layer name .bridge)),
    ("proxy", .str (Naming.layer name .proxy)), ("simple", .str (Naming.simple name)),
    ("descriptor", .str (ValueType.reference name).descriptor)]

/-- Slots in order. -/
def sortSlots (t : Tree) : Command Tree := do
  let slots ← (t.itemsOf "slots").mapM slot
  return .strs ((slots.mergeSort fun a b => (compare a b).isLE).map (·.text))

/-- Two sets of modifiers and what can be made of them. -/
def compareModifiers (t : Tree) : Command Tree := do
  let a ← modifiersOf t "a"
  let b ← modifiersOf t "b"
  let both := a ||| b
  return .node [("bits", .nat a.bits.toNat), ("display", .str a.text), ("or", .str both.text),
    ("or_bits", .nat both.bits.toNat), ("contains", .bool (a.contains b)),
    ("without", .str (a.without b).text), ("package", .bool a.isPackage),
    ("flags", .list ([a.isPublic, a.isProtected, a.isPrivate, a.isStatic, a.isFinal,
      a.isAbstract].map .bool))]

/-! ## Boxing and casting -/

/-- A value with a raw primitive boxed. -/
def box (t : Tree) : Command Tree := do keepValue t (← valueOf t "value").box

/-- A value that `f` makes of the one in a field, for the type in another. -/
def convertFor (f : TypeTable → ValueType → Value → Except HostError Value) (t : Tree) :
    Command Tree := do
  let v ← valueOf t "value"
  let type ← valueTypeOf t "type"
  keepValue t (← ofExcept .host (f (← types) type v))

/-- A value as a raw primitive of a kind. -/
def unbox (t : Tree) : Command Tree := do
  let v ← valueOf t "value"
  let k ← kind (t.field "kind")
  keepValue t (← ofExcept .host ((← types).unboxAs k v))

/-- Arguments as the parameters of a signature take them. -/
def coerceArgs (t : Tree) : Command Tree := do
  let params ← valueTypesOf t "params"
  let args ← argsOf t
  let coerced ← ofExcept .host ((← types).coerceArgs params args)
  return .list (← coerced.mapM valueTree)

/-- Whether a type accepts a value, as it is and as an argument. -/
def accepts (t : Tree) : Command Tree := do
  let type ← valueTypeOf t "type"
  let v ← valueOf t "value"
  let table ← types
  return .node [("accepts", .bool (table.accepts type v)),
    ("argument", .bool (table.acceptsArgument type v))]

/-- A value as scripts see it. -/
def fromHost (t : Tree) : Command Tree := do keepValue t (← valueOf t "value").unboxed

/-! ## Values -/

/-- A primitive converted to a kind. -/
def convert (t : Tree) : Command Tree := do
  let p ← primitive (t.field "value")
  return ((p.convert (← kind (t.field "kind"))).map primitiveTree).getD .null

/-- A primitive, its bits and its text. -/
def describePrimitive (t : Tree) : Command Tree := do
  let p ← primitive (t.field "value")
  return .node [("kind", .str p.kind.keyword), ("bits", .str (toString p.bits)),
    ("display", .str p.literal)]

/-- A value and what it can be taken for. -/
def describeValue (t : Tree) : Command Tree := do
  let v ← valueOf t "value"
  return .node [("type_name", .str ((← types).typeName v)), ("null", .bool (v == .null)),
    ("int", (v.int32?.map fun i => Tree.int i.toInt).getD .null), ("str", .opt v.str?),
    ("primitive", (v.primitive?.map primitiveTree).getD .null),
    ("object", .bool v.object?.isSome), ("value", ← valueTree v)]

/-- Whether two values are equal. -/
def equal (t : Tree) : Command Tree := do
  let a ← valueOf t "a"
  return .bool (a == (← valueOf t "b"))

/-- An exception. -/
def describeException (t : Tree) : Command Tree := do
  let e ← exception (t.field "kind") (t.field "message")
  return .node [("class", .str e.kind.className), ("checked", .bool e.kind.isChecked),
    ("display", .str e.text), ("error", (HostError.ofException e).tree)]

/-- A value, kept under a name. -/
def letValue (t : Tree) : Command Tree := do keepValue t (← valueOf t "value")

/-- What can be described in full. -/
def debugText (t : Tree) : Command String := do
  let w ← world
  let name := strOf t "name"
  let script : Command ScriptType := do lookup "script" (·.scripts) (← name)
  match ← strOf t "what" with
  | "value" =>
    let v ← valueOf t "value"
    return Describe.value (← world) v
  | "object" => return Describe.object w (← objectOf t "name")
  | "instance" =>
    return Describe.instance_ (← scriptObject (← lookup "instance" (·.instances) (← name)))
  | "script" => return Describe.script w.types (← script)
  | "subtype" => return Describe.subtype (← hostType (← subtypeOf t "name"))
  | "type" => return Describe.type w (← hostType (← typeOf t "name"))
  | "loader" => return Describe.loader (← loaderOf t "name")
  | "functions" =>
    let named := (← script).named (← strOf t "function")
    return Describe.list (named.map Describe.function)
  | "ctors" =>
    return Describe.list ((← hostType (← typeOf t "name")).constructors.map Describe.ctor)
  | other => malformed other

/-- The full description of a thing, without the numbers of identities. -/
def debug (t : Tree) : Command Tree := do return .str (maskIdentities (← debugText t))

/-- The commands on kinds, types and values. -/
def onValues : List (String × (Tree → Command Tree)) :=
  [("type", describeType), ("method_descriptor", describeSignature), ("kind", describeKind),
    ("unboxed_kind", unboxedKind), ("accessor_name", accessorName),
    ("generated_name", generatedName), ("slots", sortSlots), ("modifiers", compareModifiers),
    ("box", box), ("unbox", unbox), ("check_cast", convertFor TypeTable.checkCast),
    ("unbox_or_cast", convertFor TypeTable.unboxOrCast),
    ("to_host", convertFor TypeTable.toHost), ("coerce_args", coerceArgs), ("accepts", accepts),
    ("from_host", fromHost), ("convert", convert), ("prim", describePrimitive),
    ("value", describeValue), ("eq", equal), ("exception", describeException), ("let", letValue),
    ("debug", debug)]

end Interpose.Command
