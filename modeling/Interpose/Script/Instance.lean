import Interpose.Dispatch.AccessorCache

/-!
# Script objects

A script object has properties: those that are fields of its base type, unless the script defines a
function of that name, are views of the fields of its bridge; all others are its own.
-/

namespace Interpose

namespace ScriptType

/-- The properties of new script objects: a view of each field of the base type that is not static
and that the script does not define as a function. -/
def liveProperties (types : TypeTable) (s : ScriptType) : List (String × Property) :=
  ((types.lineage s.base).flatMap (·.fields)).foldl
    (fun properties f =>
      if f.modifiers.isStatic || s.defines f.name || properties.any (·.1 == f.name) then properties
      else properties ++ [(f.name, .live)])
    []

end ScriptType

namespace Instance

/-- The property of a name. -/
def property? (i : Instance) (name : String) : Option Property :=
  (i.properties.find? (·.1 == name)).map (·.2)

/-- A script object with a property of its own set. -/
def hold (i : Instance) (name : String) (v : Value) : Instance :=
  { i with properties := (name, .held v) :: i.properties.filter (·.1 != name) }

end Instance

namespace World

/-- The value of a property. -/
def getProperty (id : InstanceId) (name : String) : Action Value := do
  match (← get).instances[id.index]? with
  | none => Action.raise (.noSuchField name)
  | some i =>
    match i.property? name with
    | some (.held v) => return v
    | some .live => getField i.bridge name
    | none => Action.raise (.noSuchField (i.script.name ++ "." ++ name))

/-- Sets a property; a view sets the field. -/
def setProperty (id : InstanceId) (name : String) (v : Value) : Action Unit := do
  match (← get).instances[id.index]? with
  | none => Action.raise (.noSuchField name)
  | some i =>
    match i.property? name with
    | some .live => setField i.bridge name v
    | _ => modify fun w => { w with instances := w.instances.modify id.index (·.hold name v) }

/-- Whether a script object has a property. -/
def hasProperty (w : World) (id : InstanceId) (name : String) : Bool :=
  w.instances[id.index]?.any fun i => (i.property? name).isSome

end World

namespace Runner

/-- Runs what the operation of a name overrides: the first in the table of the bridge's class whose
parameters accept the arguments, or else the first with as many. -/
def overriddenNamed (run : Runner) (id : InstanceId) (name : String) (args : List Value) :
    Action Value := do
  let w ← get
  match w.instances[id.index]? with
  | none => Action.raise (.noSuchMethod name)
  | some i =>
    let operations := ((w.types.proxy? i.bridge.cls).map (·.operations)).getD []
    let candidates := operations.filter fun m => m.name == name && m.params.length == args.length
    match (candidates.find? fun m => w.types.acceptsArgs m.params args).or candidates.head? with
    | some op => run.overridden i.platform i.bridge op args
    | none => Action.raise (.noSuchMethod (callText w.types i.bridge.cls name args.length))

end Runner

end Interpose
