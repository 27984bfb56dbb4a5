import Interpose.Run.Task

/-!
# What operations override

A proxy has an accessor for each operation that it takes over, which runs what the operation
overrides. Accessors are found by name and parameter types; each platform remembers those found,
by the class they were looked up on and the slot.
-/

namespace Interpose

namespace TypeTable

/-- The accessor of an operation among the operations of a class and its superclasses. -/
def findAccessor (types : TypeTable) (real : TypeId) (op : Method) : Except HostError Method :=
  let name := Naming.accessor op.name op.returns
  match ((types.lineage real).flatMap (·.methods)).find? fun m =>
      m.name == name && m.params == op.params with
  | some m => .ok m
  | none => .error (.noSuchMethod (types.nameOf real ++ "." ++ name))

end TypeTable

namespace AccessorCache

/-- The remembered accessor of a slot. -/
def get? (cache : AccessorCache) (real : TypeId) (slot : Slot) : Option ResolvedAccessor :=
  (cache.entries.find? (·.1 == (real, slot))).map (·.2)

/-- Looks an accessor up, and remembers it if it is found. -/
def resolve (types : TypeTable) (real : TypeId) (op : Method) (cache : AccessorCache) :
    Except HostError ResolvedAccessor × AccessorCache :=
  match cache.get? real op.slot with
  | some known => (.ok known, cache)
  | none =>
    match types.findAccessor real op with
    | .error e => (.error e, cache)
    | .ok m =>
      (.ok ⟨op, m⟩, ⟨((real, op.slot), ⟨op, m⟩) :: cache.entries, cache.resolutions + 1⟩)

end AccessorCache

namespace Runner

/-- The accessor of an operation on a class, through the memory of a platform. -/
def resolve (p : PlatformId) (real : TypeId) (op : Method) : Action ResolvedAccessor := do
  let w ← get
  let (result, cache) := AccessorCache.resolve w.types real op (w.platform p).accessors
  World.modifyPlatform p fun s => { s with accessors := cache }
  Action.ofExcept result

/-- Runs an accessor on boxed arguments. -/
def runAccessor (run : Runner) (a : ResolvedAccessor) (this : ObjectRef) (args : List Value) :
    Action Value := do
  let args ← Action.withTypes fun types => types.coerceArgs a.accessor.params args
  run (.method a.accessor this args)

/-- Runs what an operation overrides. -/
def overridden (run : Runner) (p : PlatformId) (this : ObjectRef) (op : Method) (args : List Value) :
    Action Value := do
  run.runAccessor (← resolve p this.cls op) this args

/-- The operation at a position of the table of an object's class. -/
def operationAt (o : ObjectRef) (operation : Nat) : Action Method := do
  let types := (← get).types
  match (types.proxy? o.cls).bind (·.operations[operation]?) with
  | some op => return op
  | none =>
    Action.raise (.noSuchMethod (types.nameOf o.cls ++ " operation #" ++ toString operation))

end Runner

end Interpose
