import Interpose.Session.Keeping
import Interpose.Harvest.Interception
import Interpose.Harvest.Property

/-!
# Commands on types

What types declare and inherit, which operations can be intercepted, and which properties interfaces
describe.
-/

namespace Interpose.Command

/-! ## What types declare and inherit -/

/-- All about a type. -/
def typeInfo (t : Tree) : Command Tree := do typeTree (← typeOf t "type")

/-- Whether a type is a subtype of the type of a name. -/
def isSubtype (t : Tree) : Command Tree := do
  let id ← typeOf t "type"
  return .bool ((← types).isSubtypeOf id (← strOf t "name"))

/-- An operation that was looked for, as an answer. -/
def found (m : Option Method) : Tree := .opt (m.map (·.listing))

/-- The operation of a slot. -/
def findVirtual (t : Tree) : Command Tree := do
  let id ← typeOf t "type"
  return found ((← types).findVirtual? id (← slot t))

/-- The operation of a name and a number of parameters. -/
def findMethod (t : Tree) : Command Tree := do
  let id ← typeOf t "type"
  let name ← strOf t "name"
  return found ((← types).findMethod? id name (← natOf t "arity"))

/-- The operation of a name that takes arguments. -/
def findMethodFor (t : Tree) : Command Tree := do
  let id ← typeOf t "type"
  let name ← strOf t "name"
  let args ← argsOf t
  return found ((← types).findMethodFor? id name args)

/-- The constructor for parameters. -/
def findConstructor (t : Tree) : Command Tree := do
  let type ← hostType (← typeOf t "type")
  return .opt ((type.findConstructor? (← valueTypesOf t "params")).map (·.text))

/-- The field of a name. -/
def findField (t : Tree) : Command Tree := do
  let id ← typeOf t "type"
  return .opt (((← types).findField? id (← strOf t "name")).map (·.listing))

/-- All about an operation. -/
def methodInfo (t : Tree) : Command Tree := do
  let m ← methodOf t
  let occupies ← match t.given? "slot" with
    | none => pure Tree.null
    | some s => do pure (.bool (m.occupies (← slot s)))
  let args ← argsOf t
  return .node [("display", .str m.listing), ("descriptor", .str m.descriptor),
    ("slot", .str m.slot.text), ("abstract", .bool m.isAbstract),
    ("virtual", .bool m.isVirtual), ("accepts", .bool ((← types).acceptsArgs m.params args)),
    ("occupies", occupies)]

/-! ## Harvesting -/

/-- The types that a field lists. -/
def hostTypesOf (t : Tree) (name : String) : Command (List HostType) := do
  (← typesOf t name).mapM hostType

/-- The operations of a type and more interfaces that can be intercepted. -/
def harvest (t : Tree) : Command Tree := do
  let id ← typeOf t "type"
  let extra ← typesOf t "extra"
  return tableTree ((← types).harvest id extra)

/-- The operations of a type and more interfaces that are left abstract. -/
def harvestAbstract (t : Tree) : Command Tree := do
  let id ← typeOf t "type"
  let extra ← typesOf t "extra"
  return .strs (((← types).harvestAbstract id extra).map (·.listing))

/-- The operations to intercept along a chain of classes and interfaces. -/
def interceptSet (t : Tree) : Command Tree := do
  let chain ← hostTypesOf t "chain"
  let interfaces ← hostTypesOf t "interfaces"
  return tableTree (intercept (chain ++ interfaces))

/-- The chain of classes and the interfaces that a type is harvested from. -/
def interfaceList (t : Tree) : Command Tree := do
  let id ← typeOf t "type"
  let extra ← typesOf t "extra"
  let table ← types
  return .node [("chain", .strs ((table.lineage id).map (·.name))),
    ("interfaces", .strs ((table.interfaceList id extra).map (·.name)))]

/-- The properties that interfaces describe. -/
def properties (t : Tree) : Command Tree := do
  let interfaces ← typesOf t "interfaces"
  let pairs ← ofExcept .harvest ((← types).harvestProperties interfaces)
  return .list (pairs.map fun p => .node [("name", .str p.name), ("field", .str p.fieldName),
    ("type", .str p.type.text), ("getter", .str p.getter.text), ("setter", .str p.setter.text)])

/-- The commands on types. -/
def onTypes : List (String × (Tree → Command Tree)) :=
  [("type_info", typeInfo), ("subtype_of", isSubtype), ("find_virtual", findVirtual),
    ("find_method", findMethod), ("find_method_for", findMethodFor),
    ("find_constructor", findConstructor), ("find_field", findField), ("method_info", methodInfo),
    ("harvest", harvest), ("harvest_abstract", harvestAbstract), ("intercept", interceptSet),
    ("interface_list", interfaceList), ("properties", properties)]

end Interpose.Command
