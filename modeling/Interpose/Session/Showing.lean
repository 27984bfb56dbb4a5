import Interpose.Session.Reading
import Interpose.Primitive.Text
import Interpose.Run.Describe

/-!
# Showing results

Values, types and functions as trees. Objects are numbered in the order in which a session first
shows them, and script objects and dispatchers are shown by name.
-/

namespace Interpose.Command

/-- A primitive as a node whose field is named by its kind. -/
def primitiveTree (p : Primitive) : Tree :=
  .node [(p.kind.keyword, match p with
    | .boolean b => .bool b
    | .byte v => .int v.toInt
    | .char v => .nat v.toNat
    | .short v => .int v.toInt
    | .int v => .int v.toInt
    | .long v => .str (toString v.toInt)
    | .float b => .str (hexPadded 8 b.toNat)
    | .double b => .str (hexPadded 16 b.toNat))]

/-- The number of an object, given when it is first shown. -/
def numberOf (o : ObjectRef) : Command Nat := do
  let s ← get
  match s.shown.findIdx? (· == o) with
  | some n => return n
  | none =>
    set { s with shown := s.shown ++ [o] }
    return s.shown.length

/-- The name of a script object. -/
def instanceName (id : InstanceId) : Command Tree := do
  return .opt ((← world).names.instances.firstWhere (· == id))

/-- The name of a dispatcher. -/
def dispatcherName (d : DispatcherId) : Command Tree := do
  return .opt ((← world).names.dispatchers.firstWhere (· == d))

/-- A value with arrays nested at most so deep. -/
def valueTreeWithin : Nat → Value → Command Tree
  | _, .void => return .node [("void", .bool true)]
  | _, .null => return .null
  | _, .prim p => return primitiveTree p
  | _, .boxed p => return .node [("boxed", primitiveTree p)]
  | _, .str s => return .str s
  | _, .object o => do
    let n ← numberOf o
    return .node [("object", .str ((← types).nameOf o.cls)), ("n", .nat n)]
  | 0, .array _ => malformed "array"
  | depth + 1, .array id => do
    let items := ((← world).arrays[id.index]?).getD #[]
    return .node [("array", .list (← items.toList.mapM (valueTreeWithin depth)))]
  | _, .dispatcher d => return .node [("dispatcher", ← dispatcherName d)]
  | _, .operation n => return .node [("operation", .nat n)]
  | _, .throwable _ e => return .node [("throwable", .strs [e.kind.className, e.message])]
  | _, .foreign (.interpreter id) => return .node [("foreign", ← instanceName id)]
  | _, .foreign (.token _) => return .node [("foreign", .null)]

/-- A value; arrays that are not nested in themselves are no deeper than there are arrays. -/
def valueTree (v : Value) : Command Tree := do
  valueTreeWithin ((← world).arrays.size + 1) v

/-- The names of types. -/
def namesOf (ids : List TypeId) : Command Tree := do
  return .strs (ids.map (← types).nameOf)

/-- The generation record of a type. -/
def generationTree (t : HostType) (g : Generation) : Command Tree := do
  return .node [("role", .str g.role.word), ("base", .str ((← types).nameOf g.base)),
    ("operations", .strs (g.operations.map (·.text))), ("requested", ← namesOf g.requested),
    ("dispatcher", .bool ((← world).dispatcherOf? t.id).isSome)]

/-- All about a type. -/
def typeTree (id : TypeId) : Command Tree := do
  let t ← hostType id
  let table ← types
  let generated ← match t.generated with
    | none => pure .null
    | some g => generationTree t g
  return .node [
    ("display", .str t.text),
    ("simple", .str (Naming.simple t.name)),
    ("descriptor", .str (ValueType.reference t.name).descriptor),
    ("mods", .str t.modifiers.text),
    ("interface", .bool t.isInterface),
    ("abstract", .bool t.isAbstract),
    ("final", .bool t.isFinal),
    ("ancestors", .strs ((table.lineage id).map (·.name))),
    ("interfaces", .strs ((table.allInterfaces id).map (·.name))),
    ("methods", .strs (t.methods.map (·.listing))),
    ("ctors", .strs (t.constructors.map (·.listing))),
    ("fields", .strs (t.fields.map (·.listing))),
    ("generated", generated),
    ("loader", .str t.loader.name),
    ("proxy", .opt ((table.proxy? id).map fun g => table.nameOf g.base))]

/-- The fields that show a function. -/
def functionFields (f : ScriptFunction) : List (String × Tree) :=
  [("name", .str f.name),
    ("arity", match f.arity with
      | some n => .nat n
      | none => .null),
    ("source", .opt (f.source?.map (·.text))),
    ("script", .bool f.isScript),
    ("body", .bool f.isScript)]

/-- A text with each number right after an opening identity or a number sign replaced by a line. -/
def maskIdentities (s : String) : String := String.ofList (go s.length s.toList)
where
  /-- The text without the number that it begins with. -/
  mask (cs : List Char) : List Char :=
    if cs.head?.any Char.isDigit then '_' :: cs.dropWhile Char.isDigit else cs
  /-- The text with its numbers replaced. -/
  go : Nat → List Char → List Char
    | 0, cs => cs
    | n + 1, cs =>
      match cs with
      | 'I' :: 'd' :: '(' :: rest => 'I' :: 'd' :: '(' :: go n (mask rest)
      | '#' :: rest => '#' :: go n (mask rest)
      | c :: rest => c :: go n rest
      | [] => []

end Interpose.Command
