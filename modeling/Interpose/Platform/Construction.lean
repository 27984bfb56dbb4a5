import Interpose.Platform.Subtype
import Interpose.Script.Instance

/-!
# Construction

A script object is made in three steps: its bridge is allocated, the constructor runs while the
bridge is marked as under construction, and the bridge is bound to the new script object. The mark
is taken back however construction ends.
-/

namespace Interpose

/-- A computation that answers a request to a platform. -/
abbrev PlatformAction := ExceptT PlatformError Action

namespace PlatformAction

/-- A computation whose errors are errors of the host. -/
def ofHost {α : Type} (x : Action α) : PlatformAction α := do
  match ← (Action.outcome x : Action _) with
  | .ok a => return a
  | .error e => throw (.host e)

/-- A change of the world that may fail. -/
def ofWorld {α : Type} (f : World → Except PlatformError α × World) : PlatformAction α := fun w =>
  let (result, w) := f w
  (.ok result, w)

end PlatformAction

namespace World

/-- Computes while an object is marked as under construction, and puts the mark before it back. -/
def constructing {α : Type} (p : PlatformId) (o : ObjectRef) (x : PlatformAction α) :
    PlatformAction α := fun w =>
  let before := (w.platform p).constructing
  let mark (m : Option ObjectRef) (w : World) : World :=
    { w with platforms := w.platforms.modify p.index fun s => { s with constructing := m } }
  Action.finally_ x (mark before) (mark (some o) w)

/-- Adds a script object. -/
def addInstance (i : Instance) : Action InstanceId := fun w =>
  (.ok ⟨w.instances.size⟩, { w with instances := w.instances.push i })

end World

namespace Runner

/-- Makes a script object of a script type with a bridge of a generated type, whose constructor is
found by its parameter types. -/
def createInstance (run : Runner) (p : PlatformId) (proxy : TypeId) (script : ScriptType)
    (params : List ValueType) (args : List Value) : PlatformAction InstanceId := do
  let types := (← get).types
  let base := types.nameOf script.base
  if params.length ≠ args.length then
    throw (.config (.argumentCountMismatch params.length args.length))
  match (types.lookup? proxy).bind (·.findConstructor? params) with
  | none => throw (.config (.noSuchConstructor base params))
  | some c =>
    let bridge ← PlatformAction.ofHost (World.allocate proxy)
    World.constructing p bridge do
      match ← (Action.outcome (run (.constructor c bridge args)) : Action _) with
      | .error e => throw (if e.isChecked then .construction base e else .host e)
      | .ok _ =>
        let properties := script.liveProperties (← get).types
        let id ← (World.addInstance ⟨script, bridge, p, properties⟩ : Action _)
        if ← (World.bind bridge id : Action _) then return id
        else throw (.host (.exception
          ⟨.illegalState, "bridge " ++ toString bridge.index ++ " is already bound"⟩))

/-- Makes a script object with a bridge of the subtype that its script type asks for. -/
def extend (run : Runner) (p : PlatformId) (script : ScriptType) (params : List ValueType)
    (args : List Value) : PlatformAction InstanceId := do
  let proxy ← PlatformAction.ofWorld
    (World.createExtensionType p script.base script.interfaces script.propertyInterfaces .system)
  run.createInstance p proxy script params args

/-- The script object that an object gives out through the capability: what its operation answers,
or else what it is bound to. -/
def instanceOf (run : Runner) (o : ObjectRef) : Action (Option InstanceId) := do
  if (← get).types.isSubtypeOf o.cls capabilityName then
    match ← Action.outcome (run.invoke o capabilitySlot []) with
    | .ok (.foreign (.interpreter id)) => return some id
    | .ok (.foreign (.token _)) => return none
    | .ok other => World.holding other.holders (World.boundTo o)
    | .error _ => World.boundTo o
  else return none

end Runner

/-- A request for a subtype whose calls go to a dispatcher of the caller's. -/
structure ExtensionRequest where
  base : TypeId
  interfaces : List TypeId
  properties : List TypeId
  dispatcher : Option DispatcherId
  params : List ValueType
  args : List Value
  loader : Loader

namespace ExtensionRequest

/-- The subtype that is asked for, without a dispatcher. -/
def buildType (r : ExtensionRequest) (p : PlatformId) (w : World) :
    Except PlatformError TypeId × World :=
  match w.classAmong? (r.interfaces ++ r.properties) with
  | some t => (.error (.config (.notAnInterface t.name)), w)
  | none =>
    w.fromRegistry p (·.unmanaged) (fun s reg => { s with unmanaged := reg })
      (CacheKey.of r.base r.interfaces r.properties r.loader)
      (World.generate (w.emitter p) r.base r.interfaces r.properties r.loader none)

/-- The object that is asked for. The dispatcher is set before the object is constructed; a subtype
that has one already must have the same. -/
def build (r : ExtensionRequest) (run : Runner) (p : PlatformId) : PlatformAction ObjectRef := do
  let baseName := (← get).types.nameOf r.base
  match r.dispatcher with
  | none => throw (.config (.missingDispatcher baseName))
  | some d =>
    if r.params.length ≠ r.args.length then
      throw (.config (.argumentCountMismatch r.params.length r.args.length))
    let proxy ← PlatformAction.ofWorld (r.buildType p)
    let w ← get
    match w.dispatcherOf? proxy with
    | some current =>
      if current ≠ d then
        throw (.config (.dispatcherAlreadySet (w.types.nameOf proxy)))
    | none => set { w with installed := (proxy, d) :: w.installed }
    match (w.types.lookup? proxy).bind (·.findConstructor? r.params) with
    | none => throw (.config (.noSuchConstructor baseName r.params))
    | some _ => PlatformAction.ofHost (run.construct proxy r.params r.args)

end ExtensionRequest

end Interpose
