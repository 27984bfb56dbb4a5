import Interpose.Session.Showing

/-!
# Keeping results

The answers of commands that make something keep it under the name that the command gives.
-/

namespace Interpose.Command

/-- What is answered where nothing else is. -/
def done : Tree := .str "ok"

/-- A value as an answer; it is kept if the command names it. -/
def keepValue (t : Tree) (v : Value) : Command Tree := do
  if let some name := t.strOf? "as" then
    keep fun n => { n with values := n.values.put name v }
  valueTree v

/-- An object as an answer; it is kept if the command names it. -/
def keepObject (t : Tree) (o : ObjectRef) : Command Tree := keepValue t (.object o)

/-- A script object as an answer, kept under the name that the command gives. -/
def keepInstance (t : Tree) (id : InstanceId) : Command Tree := do
  run (World.keepInstance (← strOf t "as") id)
  valueTree (.object (← scriptObject id).bridge)

/-- A subtype as an answer, kept under the name that the command gives. -/
def keepSubtype (t : Tree) (id : TypeId) : Command Tree := do
  let name ← strOf t "as"
  keep fun n => { n with subtypes := n.subtypes.put name id }
  let subtype ← hostType id
  return .node [("name", .str subtype.name), ("operations", .nat (operationsOf subtype).length)]

/-- A defined type as an answer, kept under the name that the command gives. -/
def keepType (t : Tree) (id : TypeId) : Command Tree := do
  let name ← strOf t "as"
  keep fun n => { n with types := n.types.put name id }
  typeTree id

/-- Operations in the order of a table, as an answer. -/
def tableTree (operations : List Method) : Tree :=
  let row (m : Method) : Tree :=
    let number := match indexOf? operations m.slot with
      | some i => "#" ++ toString i
      | none => ""
    .strs [number, m.slot.text, m.listing]
  .node [("len", .nat operations.length), ("empty", .bool operations.isEmpty),
    ("rows", .list (operations.map row))]

end Interpose.Command
