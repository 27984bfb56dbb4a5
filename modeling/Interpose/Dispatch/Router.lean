import Interpose.Dispatch.AccessorCache

/-!
# Routing

Where intercepted calls go. The call of an object under construction, or bound to nothing, goes to
what the operation overrides. Any other is answered by the function that its script type resolves
it to; if that stands for an operation of the host, what that one overrides runs.
-/

namespace Interpose

namespace Runner

/-- Runs an overload of the operation that was called. One that is not intercepted is called as
it stands. -/
def callOverload (run : Runner) (p : PlatformId) (bridge : ObjectRef) (source : Method)
    (args : List Value) : Action Value := do
  match ← Action.outcome (resolve p bridge.cls source) with
  | .ok a => run.runAccessor a bridge args
  | .error _ =>
    let args ← Action.withTypes fun types => types.coerceArgs source.params args
    run.invoke bridge source.slot args

/-- The answer of a script object to the call of an operation with boxed arguments, which are held
until it is there. The capability's operation is answered by the script object itself. -/
def route (run : Runner) (p : PlatformId) (id : InstanceId) (op : Method) (args : List Value) :
    Action Value := do
  let w ← get
  match w.instances[id.index]? with
  | none => Action.raise (.nullPointer op.text)
  | some i =>
    if op.declaring == capabilityName then return .foreign (.interpreter id)
    else World.holding (args.flatMap (·.holders)) do
      let raw := args.map (·.unboxed)
      match i.script.resolve? w.types op.name raw with
      | none => Action.raise (.unimplementedAbstract op.text i.script.name)
      | some f =>
        if f.isAbstractOnHost then Action.raise (.unimplementedAbstract op.text i.script.name)
        else
          match f with
          | .scripted _ _ _ =>
            let result ← run (.function f id raw)
            if op.returns.isVoid then return .void
            else Action.withTypes fun types => types.toHost op.returns result
          | .imported source =>
            if source.slot = op.slot then run.overridden p i.bridge op args
            else run.callOverload p i.bridge source args

/-- The answer to an intercepted call, boxed. What the receiver is bound to is looked up while the
arguments are still held. -/
def dispatchRouted (run : Runner) (p : PlatformId) (this : ObjectRef) (operation : Nat)
    (args : List Value) : Action Value := do
  let op ← operationAt this operation
  let w ← get
  let result ←
    if (w.platform p).constructing = some this then run.overridden p this op args
    else
      match ← World.holding (args.flatMap (·.holders)) (World.boundTo this) with
      | some id => World.holding [.instance id] (run.route p id op args)
      | none => run.overridden p this op args
  return result.box

end Runner

end Interpose
