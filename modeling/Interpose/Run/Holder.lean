import Interpose.Host.Value

/-!
# Holders

What can hold other things and so keep them alive. Values hold the objects and the arrays that they
name, and a handle of a script object holds that. Dispatchers, operations and exceptions hold
nothing.
-/

namespace Interpose

/-- Something that holds other things as long as it is alive itself. -/
inductive Holder where
  | instance (id : InstanceId)
  | object (index : Nat)
  | array (id : ArrayId)
  | type (id : TypeId)
deriving DecidableEq

/-- What a value holds. -/
def Value.holders : Value → List Holder
  | .object o => [.object o.index]
  | .array id => [.array id]
  | .foreign (.interpreter id) => [.instance id]
  | _ => []

namespace Holder

/-- What an object and further values hold together. -/
def ofCall (this : ObjectRef) (args : List Value) : List Holder :=
  .object this.index :: args.flatMap (·.holders)

theorem object_mem_ofCall (this : ObjectRef) (args : List Value) :
    .object this.index ∈ ofCall this args := by
  simp [ofCall]

end Holder

end Interpose
