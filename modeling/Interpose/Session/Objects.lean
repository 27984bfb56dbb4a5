import Interpose.Session.Keeping
import Interpose.Session.Code
import Interpose.Platform.Construction

/-!
# Commands on objects and script objects

Objects are made, called and read; script objects are extended from script types and answer calls by
way of their bridges.
-/

namespace Interpose.Command

/-! ## Objects -/

/-- Makes an object without constructing it. -/
def allocate (t : Tree) : Command Tree := do
  let id ← typeOf t "type"
  keepObject t (← run (World.allocate id))

/-- Makes an object by a constructor. -/
def construct (t : Tree) : Command Tree := do
  let id ← typeOf t "type"
  let params ← valueTypesOf t "params"
  let args ← argsOf t
  keepObject t (← run (runner.construct id params args))

/-- Calls an operation of an object by name. -/
def callObject (t : Tree) : Command Tree := do
  let o ← objectOf t "object"
  let name ← strOf t "name"
  let args ← argsOf t
  keepValue t (← run (runner.call o name args))

/-- Invokes an operation of an object by its slot. -/
def invokeSlot (t : Tree) : Command Tree := do
  let o ← objectOf t "object"
  let s ← slot t
  let args ← argsOf t
  keepValue t (← run (runner.invoke o s args))

/-- Invokes an operation on an object, whatever overrides it. -/
def invokeDirect (t : Tree) : Command Tree := do
  let m ← methodOf t
  let o ← objectOf t "object"
  let args ← argsOf t
  keepValue t (← run (runner (.method m o args)))

/-- Runs a constructor on an object. -/
def invokeConstructor (t : Tree) : Command Tree := do
  let c ← ctorAt (t.field "type") (t.field "index")
  let o ← objectOf t "object"
  let args ← argsOf t
  keepValue t (← run (runner (.constructor c o args)))

/-- The value of a field of an object. -/
def getField (t : Tree) : Command Tree := do
  let o ← objectOf t "object"
  let name ← strOf t "name"
  keepValue t (← run (World.getField o name))

/-- Sets a field of an object. -/
def setField (t : Tree) : Command Tree := do
  let o ← objectOf t "object"
  let name ← strOf t "name"
  let v ← valueOf t "value"
  run (World.setField o name v)
  return done

/-- Whether an object is bound to a script object, and whether that is still there. -/
def bound (t : Tree) : Command Tree := do
  let o ← objectOf t "object"
  let alive ← run (World.boundTo o)
  let w ← world
  return .node [("bound", .bool (w.isBound o)), ("alive", .bool alive.isSome),
    ("instance", .opt (alive.bind fun id => w.names.instances.firstWhere (· == id)))]

/-! ## Script objects -/

/-- Runs a computation while a script object is held. -/
def holding (id : InstanceId) (x : Action Value) : Command Value :=
  run (World.holding [.instance id] x)

/-- Makes a script object of a script type on a platform. -/
def extend (t : Tree) : Command Tree := do
  let s ← scriptOf t
  let p ← platformOf t
  let params ← valueTypesOf t "params"
  let args ← argsOf t
  keepInstance t (← runPlatform (runner.extend p s params args))

/-- Makes a script object of a generated subtype. -/
def createInstance (t : Tree) : Command Tree := do
  let subtype ← subtypeOf t "subtype"
  let s ← scriptOf t
  let p ← platformOf t
  let params ← valueTypesOf t "params"
  let args ← argsOf t
  keepInstance t (← runPlatform (runner.createInstance p subtype s params args))

/-- Calls an operation of a script object by name. -/
def callInstance (t : Tree) : Command Tree := do
  let id ← instanceOf t
  let name ← strOf t "name"
  let args ← argsOf t
  let i ← scriptObject id
  keepValue t (← holding id (runner.call i.bridge name args))

/-- Calls what an operation of a script object overrides, by name. -/
def callOverridden (t : Tree) : Command Tree := do
  let id ← instanceOf t
  let name ← strOf t "name"
  let args ← argsOf t
  keepValue t (← holding id (runner.overriddenNamed id name args))

/-- Calls what an operation of a script object overrides, on a platform. -/
def platformOverridden (t : Tree) : Command Tree := do
  let id ← instanceOf t
  let m ← methodOf t
  let p ← platformOf t
  let args ← argsOf t
  let i ← scriptObject id
  keepValue t (← holding id (runner.overridden p i.bridge m args))

/-- The value of a property of a script object. -/
def getProperty (t : Tree) : Command Tree := do
  let id ← instanceOf t
  let name ← strOf t "name"
  keepValue t (← run (World.getProperty id name))

/-- Sets a property of a script object. -/
def setProperty (t : Tree) : Command Tree := do
  let id ← instanceOf t
  let name ← strOf t "name"
  let v ← valueOf t "value"
  run (World.setProperty id name v)
  return done

/-- Whether a script object has a property. -/
def hasProperty (t : Tree) : Command Tree := do
  let id ← instanceOf t
  return .bool ((← world).hasProperty id (← strOf t "name"))

/-- All about a script object. -/
def instanceInfo (t : Tree) : Command Tree := do
  let i ← scriptObject (← instanceOf t)
  let table ← types
  return .node [("script", .str i.script.name), ("base", .str (table.nameOf i.script.base)),
    ("class", .str (table.nameOf i.bridge.cls))]

/-- The script object that an object gives when it is asked for one. -/
def instanceBehind (t : Tree) : Command Tree := do
  let _ ← platformOf t
  let o ← objectOf t "object"
  let found ← run (runner.instanceOf o)
  let w ← world
  return .node [("found", .bool found.isSome),
    ("instance", .opt (found.bind fun id => w.names.instances.firstWhere (· == id)))]

/-- Forgets the name of a script object. -/
def dropInstance (t : Tree) : Command Tree := do
  let name ← strOf t "instance"
  let had := ((← world).names.instances.get? name).isSome
  keep fun n => { n with instances := n.instances.erase name }
  return .bool had

/-! ## Script types -/

/-- The functions of a script type with a name. -/
def functions (t : Tree) : Command Tree := do
  let s ← scriptOf t
  let name ← strOf t "name"
  return .node [("defines", .bool (s.defines name)),
    ("functions", .list ((s.named name).map fun f => .node (functionFields f)))]

/-- The function that a script type answers a call with. -/
def resolveFunction (t : Tree) : Command Tree := do
  let s ← scriptOf t
  let name ← strOf t "name"
  let args ← argsOf t
  match ScriptType.resolve? (← types) s name args with
  | none => return .null
  | some f => return .node (functionFields f ++ [("abstract", .bool f.isAbstractOnHost)])

/-- Calls a function of a script type on a script object. -/
def callFunction (t : Tree) : Command Tree := do
  let s ← scriptOf t
  let id ← instanceOf t
  let name ← strOf t "name"
  let f ← nth (s.named name) (← natOf t "index")
  let args ← argsOf t
  keepValue t (← holding id (runner (.function f id args)))

/-- The commands on objects, script objects and script types. -/
def onObjects : List (String × (Tree → Command Tree)) :=
  [("allocate", allocate), ("construct", construct), ("call", callObject),
    ("invoke", invokeSlot), ("invoke_direct", invokeDirect), ("invoke_ctor", invokeConstructor),
    ("get_field", getField), ("set_field", setField), ("bound", bound), ("extend", extend),
    ("create_instance", createInstance), ("icall", callInstance), ("original", callOverridden),
    ("platform_original", platformOverridden), ("get_property", getProperty),
    ("set_property", setProperty), ("has_property", hasProperty),
    ("instance_info", instanceInfo), ("instance_of", instanceBehind),
    ("drop_instance", dropInstance), ("functions", functions), ("resolve", resolveFunction),
    ("call_function", callFunction)]

end Interpose.Command
