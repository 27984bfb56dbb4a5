import Std.Data.HashSet
import Interpose.Run.World

/-!
# Liveness

A script object or a type is alive while something holds it: a name, a registry, a computation in
progress, or something else that is alive. So counting how often each thing is held decides it, and
what holds itself in a circle is never let go. What names and computations hold is found by a search
from them, so counting is left for what they do not hold. An object does not hold the script object
that it is the bridge of, and code does not hold the type that defines it.
-/

namespace Interpose

/-- The types that a script type holds. -/
def ScriptType.holders (s : ScriptType) : List Holder :=
  (s.base :: s.interfaces ++ s.propertyInterfaces).map .type

/-- The subtypes that a registry holds. -/
def Registry.holders (r : Registry) : List Holder := r.entries.filterMap fun e => e.2.map .type

/-- What a generation record holds. -/
def Generation.holders (g : Generation) : List Holder :=
  .array g.table :: (g.base :: g.requested).map .type

/-- The types that a type holds, and the operation table of a generated one. -/
def HostType.holders (t : HostType) : List Holder :=
  (t.superclass.toList ++ t.interfaces).map .type ++ t.generated.toList.flatMap (·.holders)

/-- The class of an object, and what its fields hold. -/
def ObjectState.holders (o : ObjectState) : List Holder :=
  .type o.cls :: o.fields.flatMap (·.2.holders)

/-- What a property holds; a view of a field holds nothing. -/
def Property.holders : Property → List Holder
  | .held v => v.holders
  | .live => []

/-- The bridge of a script object, its script type, and what its properties hold. -/
def Instance.holders (i : Instance) : List Holder :=
  .object i.bridge.index :: i.script.holders ++ i.properties.flatMap (·.2.holders)

/-- The position of a holder when those of the four sorts take turns. -/
def Holder.position : Holder → Nat
  | .instance id => 4 * id.index
  | .object index => 4 * index + 1
  | .array id => 4 * id.index + 2
  | .type id => 4 * id.index + 3

/-- How often things are held, by their positions. -/
abbrev HoldCounts := Array Nat

namespace HoldCounts

/-- How often something is held. -/
def of (counts : HoldCounts) (h : Holder) : Nat := counts[h.position]?.getD 0

/-- Counts that something is held once more. -/
def add (counts : HoldCounts) (h : Holder) : HoldCounts := counts.modify h.position (· + 1)

/-- Counts that something is held once less. -/
def remove (counts : HoldCounts) (h : Holder) : HoldCounts := counts.modify h.position (· - 1)

/-- Counts that some things are held once less, and puts those that nothing holds any more before
others like them. -/
def unhold (counts : HoldCounts) : List Holder → List Holder → List Holder × HoldCounts
  | [], unheld => (unheld, counts)
  | h :: rest, unheld =>
    let counts := counts.remove h
    unhold counts rest (if counts.of h = 0 then h :: unheld else unheld)

end HoldCounts

namespace World

/-- What a holder holds. -/
def heldBy (w : World) : Holder → List Holder
  | .instance id => w.instances[id.index]?.toList.flatMap (·.holders)
  | .object index => w.objects[index]?.toList.flatMap (·.holders)
  | .array id => w.arrays[id.index]?.toList.flatMap fun items => items.toList.flatMap (·.holders)
  | .type id => (w.types.lookup? id).toList.flatMap (·.holders)

/-- What names hold, those of the given types among them. A platform that has no name any more
holds nothing. -/
def heldByNames (w : World) : List Holder :=
  [.type .root, .type .capability] ++ w.names.types.map (.type ·.2) ++ w.names.subtypes.map (.type ·.2) ++
    w.names.scripts.flatMap (·.2.holders) ++ w.names.instances.map (.instance ·.2) ++
    w.names.values.flatMap (·.2.holders) ++ w.names.registry.holders ++
    w.names.platforms.flatMap fun p =>
      (w.platform p.2).registry.holders ++ (w.platform p.2).unmanaged.holders

/-- What is held from outside: by names and by the computations in progress. -/
def roots (w : World) : List Holder := w.held ++ w.heldByNames

/-- Everything that can hold something. -/
def holders (w : World) : List Holder :=
  (List.range w.instances.size).map (fun i => .instance ⟨i⟩) ++
    (List.range w.objects.size).map .object ++
    (List.range w.arrays.size).map (fun i => .array ⟨i⟩) ++ w.types.map (.type ·.id)

/-- How often each thing is held while everything is alive. -/
def holdCounts (w : World) : HoldCounts :=
  (w.roots ++ w.holders.flatMap w.heldBy).foldl HoldCounts.add
    (Array.replicate (4 * w.holders.length) 0)

/-- Lets go of things that nothing holds, at most a number of them: what they held is held once less,
and is let go in its turn when nothing else holds it. -/
def letGo (w : World) : Nat → List Holder → HoldCounts → HoldCounts
  | 0, _, counts => counts
  | _ + 1, [], counts => counts
  | limit + 1, h :: unheld, counts =>
    let (unheld, counts) := counts.unhold (w.heldBy h) unheld
    letGo w limit unheld counts

/-- Puts those of some things that were not met yet, by their positions, before others to look at. -/
def meet : List Holder → List Holder → Std.HashSet Nat → List Holder × Std.HashSet Nat
  | [], ahead, met => (ahead, met)
  | h :: rest, ahead, met =>
    if met.contains h.position then meet rest ahead met
    else meet rest (h :: ahead) (met.insert h.position)

/-- Whether something is among the things ahead or is held by one of them, directly or through others.
Looks at a number of things at most, and at none of them twice. -/
def isReached (w : World) (h : Holder) : Nat → List Holder → Std.HashSet Nat → Bool
  | 0, _, _ => false
  | _ + 1, [], _ => false
  | limit + 1, next :: ahead, met =>
    next == h ||
      let (ahead, met) := meet (w.heldBy next) ahead met
      isReached w h limit ahead met

/-- How many things can hold something. -/
def holderCount (w : World) : Nat :=
  w.instances.size + w.objects.size + w.arrays.size + w.types.length

/-- Whether the roots hold something, directly or through others. -/
def isHeldByRoots (w : World) (h : Holder) : Bool :=
  let (ahead, met) := meet w.roots [] ∅
  w.isReached h w.holderCount ahead met

/-- Whether something is alive. What the roots hold is found without counting. -/
def isAlive (w : World) (h : Holder) : Bool :=
  w.held.contains h || w.heldByNames.contains h || w.isHeldByRoots h ||
    let counts := w.holdCounts
    0 < (w.letGo w.holders.length (w.holders.filter (counts.of · = 0)) counts).of h

/-- What a root holds is alive. -/
theorem isAlive_of_mem_roots {w : World} {h : Holder} (hroot : h ∈ w.roots) : w.isAlive h = true := by
  have := List.mem_append.1 hroot
  simp [isAlive, this]

/-- The script object that an object is the bridge of, while it is alive. -/
def bound? (w : World) (o : ObjectRef) : Option InstanceId :=
  match w.objects[o.index]? with
  | none => none
  | some state => state.binding.target?.filter fun id => w.isAlive (.instance id)

/-- Whether a type is alive while an object is held, which holds its class and the superclasses of
that. -/
def isDefined (w : World) (this : ObjectRef) (id : TypeId) : Bool :=
  (w.types.lineage this.cls).any (·.id == id) || w.isAlive (.type id)

end World

end Interpose
