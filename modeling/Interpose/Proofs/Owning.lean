import Interpose.Proofs.Defaults
import Interpose.Proofs.Importing

/-!
# Asking for the script object

The script object that an object belongs to is asked for with a call of the capability's operation. It goes the way of
all calls, and the platform answers it with what the object is bound to if it takes it for the capability's; if the call
fails, what the object is bound to is looked up after all. So what is asked for is told as it is, unless something that
is extended declares an operation of the same slot: then that is what the table lists and the platform is asked.
-/

namespace Interpose

open Interpose.Action (ComesTo)

/-! ## The operation of the capability -/

/-- What stands in the way of an operation does so by its slot. -/
theorem Method.hides_congr {q q' op : Method} (h : q.slot = q'.slot) : q.Hides op ↔ q'.Hides op := by
  obtain ⟨hname, hreturns, hparams⟩ := Slot.mk.inj h
  simp only [Hides, accessorName, hname, hreturns, hparams]

/-- If nothing else declares the slot of the capability's operation, what is declared of it is that operation. -/
theorem TypeTable.Numbered.modifiers_of_capability {types : TypeTable} {id : TypeId} {ids : List TypeId} {m : Method}
    (h : types.Numbered) (hstart : initial <:+ types)
    (hother : ∀ m, types.Declares id ids m → m.slot ≠ capabilitySlot)
    (hm : types.Declares id (ids ++ [.capability]) m) (hslot : m.slot = capabilitySlot) :
    m.modifiers = (.public ||| .abstract) := by
  rcases declares_append_iff.1 hm with hm | ⟨t, ht, hm⟩
  · exact absurd hslot (hother m hm)
  · obtain ⟨c, k, -, -, hmethods, -, -, hmodifiers, honly⟩ := h.exists_capability hstart
    rw [honly t ht, hmethods, List.mem_singleton] at hm
    rw [hm, hmodifiers]

namespace World.Answered

variable {e : Emitter} {older : TypeTable} {w w' w₀ : World} {base b t : HostType}
  {interfaces properties interfaces' properties' : List TypeId} {pairs : List PropertyPair} {op : Method} {n : Nat}

section

variable (h : w'.Answered e older w₀ base interfaces properties interfaces' properties' pairs b t)
  (hgrown : w.types <:+ w'.types) (hnumbered : w.types.Numbered) (hstart : TypeTable.initial <:+ w.types)
  (hdeclared : ∀ i ∈ base.id :: (interfaces ++ properties), i.index < w.types.length)

include h hgrown hnumbered hstart hdeclared

/-- If nothing that is asked for stands in the way of the capability's operation, nothing that is listed before it
does. -/
theorem not_hides_before (hclear : ∀ m, w.types.Declares base.id (interfaces ++ properties) m → ¬m.Hides op)
    (hop : (w₀.types.harvest b.id (dedupIds interfaces' ++ [.capability]))[n]? = some op)
    (hslot : op.slot = capabilitySlot) (j : Nat) (q : Method) (hj : j < n)
    (hq : (w₀.types.harvest b.id (dedupIds interfaces' ++ [.capability]))[j]? = some q) : ¬q.Hides op := by
  rcases h.exists_declared hgrown hnumbered hstart hdeclared (List.mem_of_getElem? hq) with
    ⟨hsame, -⟩ | ⟨m, hm, hsame, -⟩
  · -- the table lists a slot once
    have hnodup : ((w₀.types.harvest b.id (dedupIds interfaces' ++ [.capability])).map (·.slot)).Nodup :=
      Gathering.Sorted.nodup_slots (sorted_intercept _)
    have hlt := (List.getElem?_eq_some_iff.1 hq).1
    refine absurd ((List.getElem?_inj (by rwa [List.length_map]) hnodup).1 ?_) (Nat.ne_of_lt hj)
    rw [List.getElem?_map, List.getElem?_map, hq, hop, Option.map_some, Option.map_some, hsame, hslot]
  · rw [← Method.hides_congr hsame]
    exact hclear m hm

variable (hother : ∀ m, w.types.Declares base.id (interfaces ++ properties) m → m.slot ≠ capabilitySlot)

include hother

/-- If nothing that is asked for declares the slot of the capability's operation, what is listed of the slot is that
operation, and calls can reach it. -/
theorem eq_capability (hop : op ∈ w₀.types.harvest b.id (dedupIds interfaces' ++ [.capability]))
    (hslot : op.slot = capabilitySlot) : op.declaring = capabilityName ∧ op.isVirtual = true := by
  constructor
  · rcases h.exists_declared hgrown hnumbered hstart hdeclared hop with ⟨-, hdeclaring⟩ | ⟨m, hm, hsame, -⟩
    · exact hdeclaring
    · exact absurd (hsame.trans hslot) (hother m hm)
  · refine h.isVirtual_of_mem hgrown hstart hdeclared (fun m hm hsame _ => ?_) hop
    rw [Method.isVirtual, hnumbered.modifiers_of_capability hstart hother hm (hsame.trans hslot)]
    decide

/-- That operation is listed. -/
theorem capability_mem_slots :
    capabilitySlot ∈ (w₀.types.harvest b.id (dedupIds interfaces' ++ [.capability])).map (·.slot) := by
  obtain ⟨-, hextra⟩ := List.forall_mem_append.1 (TypeTable.index_lt_of_asked h.stands.start h.declared)
  have hlayers := h.stands.numbered_layers
  rw [h.stands.types] at hlayers
  have holder := hlayers.2.2.2.2.2.2
  rw [h.stands.types, h.built.mem_slots_iff_above hlayers.2.2.2 hextra]
  refine ⟨.inr ?_, fun m hm hslot => ?_, fun hclaimed => ?_⟩
  · obtain ⟨c, k, hc, -, hmethods, hslot, -, hmodifiers, -⟩ := holder.exists_capability h.stands.start
    obtain ⟨hname, -, hparams⟩ := Slot.mk.inj hslot
    refine ⟨k, ⟨c, .inr (.named ?_ hc), hmethods ▸ List.mem_singleton_self k⟩, hslot, ?_⟩
    · simp only [List.mem_append, List.mem_singleton, true_or, or_true]
    · rw [Method.isOffered_iff, hmodifiers, hname, hparams]
      decide
  · rw [hnumbered.modifiers_of_capability hstart hother ((h.declares_iff hgrown hstart hdeclared).1
      (holder.declares_of_above h.stands.start h.stands.base hm)) hslot]
    decide
  · -- the accessors of properties are declared by the interfaces with properties
    rw [(TypeTable.pairs_of_harvestProperties h.built.paired).mem_slots] at hclaimed
    obtain ⟨m, hm, hslot⟩ := List.mem_map.1 hclaimed
    obtain ⟨i, hi, u, hu, hm, -⟩ := TypeTable.mem_propertyMethods.1 hm
    exact hother m (h.declares_of_older hgrown hdeclared ⟨u, .inr (.named (List.mem_append_right _ hi) hu), hm⟩) hslot

end

/-- Nothing is above the capability's operation if nothing that is asked for declares its slot. -/
theorem superTarget?_eq_none (h : w'.Answered e older w₀ base interfaces properties interfaces' properties' pairs b t)
    (hgrown : w.types <:+ w'.types) (hnumbered : w.types.Numbered) (hstart : TypeTable.initial <:+ w.types)
    (hdeclared : ∀ i ∈ base.id :: (interfaces ++ properties), i.index < w.types.length)
    (hbase : w.types.lookup? base.id = some base)
    (hother : ∀ m, w.types.Declares base.id (interfaces ++ properties) m → m.slot ≠ capabilitySlot)
    (hop : op ∈ w₀.types.harvest b.id (dedupIds interfaces' ++ [.capability])) (hslot : op.slot = capabilitySlot) :
    Layer.superTarget? w₀.types b.id op = none := by
  have hlayers := h.stands.numbered_layers
  rw [h.stands.types] at hlayers hop
  have hends := h.built.endsIn hlayers.2.2.2 hop
  rw [h.ending_eq hgrown hstart hdeclared, hnumbered.ending_eq_nowhere hstart hbase fun m hm hreached =>
    hother m (hm.mono fun i hi => List.mem_append_right _ ((h.properties i).1 hi))
      ((Method.and_occupies_iff.1 hreached).2.trans hslot)] at hends
  rw [h.stands.types]
  cases hends with
  | nowhere htarget => exact htarget

end World.Answered

/-! ## Looking up what an object is bound to -/

namespace World

variable {w w' : World} {o : ObjectRef}

/-- The search from what is held from outside depends on what things hold only. -/
theorem isReached_congr (hheld : w'.heldBy = w.heldBy) (h : Holder) (limit : Nat) (ahead : List Holder)
    (met : Std.HashSet Nat) : w'.isReached h limit ahead met = w.isReached h limit ahead met := by
  induction limit generalizing ahead met with
  | zero => rfl
  | succ limit ih =>
      cases ahead with
      | nil => rfl
      | cons next ahead =>
          rw [isReached, isReached, hheld]
          exact congrArg _ (ih _ _)

/-- So does letting go of what nothing holds. -/
theorem letGo_congr (hheld : w'.heldBy = w.heldBy) (limit : Nat) (unheld : List Holder) (counts : HoldCounts) :
    w'.letGo limit unheld counts = w.letGo limit unheld counts := by
  induction limit generalizing unheld counts with
  | zero => rfl
  | succ limit ih =>
      cases unheld with
      | nil => rfl
      | cons next unheld =>
          rw [letGo, letGo, hheld]
          exact ih _ _

/-- Giving out identities changes nothing about what objects are bound to. -/
theorem bound?_issued (w : World) (issued : Nat) (o : ObjectRef) :
    ({ w with issued := issued } : World).bound? o = w.bound? o := by
  have hheld : ({ w with issued := issued } : World).heldBy = w.heldBy := by
    funext h
    cases h <;> rfl
  have halive (h : Holder) : ({ w with issued := issued } : World).isAlive h = w.isAlive h := by
    simp only [isAlive, isHeldByRoots, isReached_congr hheld, letGo_congr hheld, holdCounts, hheld]
    rfl
  simp only [bound?, halive]

/-- Looking up what an object is bound to answers it. -/
theorem fst_boundTo (w : World) (o : ObjectRef) : (boundTo o w).1 = .ok (w.bound? o) := by
  rw [boundTo, Action.bind_apply_ok (Action.get_apply w)]
  cases hbound : w.bound? o with
  | some id => rfl
  | none =>
      dsimp only
      split <;> rfl

/-- If it is bound to nothing, that is known from then on. -/
theorem boundTo_apply_of_none (h : w.bound? o = none) : ∃ objects,
    boundTo o w = (.ok none, { w with objects := objects }) ∧
      ({ w with objects := objects } : World).Unbound o := by
  rw [boundTo, Action.bind_apply_ok (Action.get_apply w)]
  simp only [h]
  by_cases hset : w.isBound o = true
  · rw [if_pos hset]
    refine ⟨_, rfl, ?_⟩
    rw [Unbound, Array.getElem?_modify, if_pos rfl]
    cases w.objects[o.index]? <;> rfl
  · rw [if_neg hset]
    refine ⟨_, rfl, ?_⟩
    rw [Unbound]
    rw [isBound] at hset
    cases hstate : w.objects[o.index]? with
    | none => rfl
    | some state =>
        rw [hstate] at hset
        rw [Option.bind_some]
        cases hbinding : state.binding with
        | bound id =>
            simp only [hbinding] at hset
            exact absurd rfl hset
        | _ => rfl

end World

/-! ## Calls that ask -/

/-- What the call of the capability's operation on an object may end with, as far as it tells what the object is bound
to: with that itself, or with an error that leaves what the object is bound to as it was. -/
inductive World.Tells (w : World) (o : ObjectRef) : Except Halt Value × World → Prop
  | answer {w' after : World} {id : InstanceId} (haside : w.Aside w') (hbound : w'.bound? o = some id) :
      Tells w o (.ok (.foreign (.interpreter id)), after)
  | error {w' : World} {issued : Nat} {e : HostError} (haside : w.Aside w') :
      Tells w o (.error (.raised e), { w' with issued := issued })
  | lapse {w' after : World} {e : HostError} (haside : w.Aside w') (hgone : w'.bound? o = none)
      (hafter : after.Unbound o) : Tells w o (.error (.raised e), after)

/-- Whether a computation fails and leaves at most what it has issued behind. -/
def Action.Refuses (w : World) (x : Action Value) : Prop :=
  ∃ w' issued e, w.Aside w' ∧ x w = (.error (.raised e), { w' with issued := issued })

namespace World

variable {w w' : World} {o : ObjectRef} {x y : Action Value} {f : TypeTable → Value → Except HostError Value}

/-- A world stays aside when what is held there besides is let go. -/
theorem Aside.letGo (h : w.Aside w') : w.Aside { w' with held := w.held } :=
  { h with held := List.suffix_rfl }

/-- A call that comes to one that tells what an object is bound to tells that. -/
theorem Tells.of_comesTo (h : ComesTo w x y f) (hy : ∀ w', w.Aside w' → w'.Tells o (y w'))
    (hf : ∀ types id, f types (.foreign (.interpreter id)) = .ok (.foreign (.interpreter id))) :
    w.Tells o (x w) := by
  obtain ⟨w', haside, hx⟩ := h
  have htells := hy w' haside
  rw [hx]
  generalize y w' = r at htells
  cases htells with
  | answer haside' hbound =>
      dsimp only
      rw [hf]
      exact .answer (haside.trans haside') hbound
  | error haside' => exact .error (haside.trans haside').letGo
  | lapse haside' hgone hafter => exact .lapse (haside.trans haside') hgone hafter

/-- Who asks gets what the object is bound to. -/
theorem Tells.instanceOf {run : Runner} (hsub : w.types.isSubtypeOf o.cls capabilityName = true)
    (h : w.Tells o (run.invoke o capabilitySlot [] w)) :
    ∃ w', w.Aside w' ∧ (run.instanceOf o w).1 = .ok (w'.bound? o) := by
  rw [Runner.instanceOf, Action.bind_apply_ok (Action.get_apply w), if_pos hsub]
  rcases hinvoke : run.invoke o capabilitySlot [] w with ⟨r, after⟩
  rw [hinvoke] at h
  cases h with
  | @answer w' _ id haside hbound =>
      have houtcome : Action.outcome (run.invoke o capabilitySlot []) w =
          (.ok (.ok (.foreign (.interpreter id))), after) := by rw [Action.outcome, hinvoke]
      refine ⟨w', haside, ?_⟩
      rw [Action.bind_apply_ok houtcome, hbound]
      rfl
  | @error w' issued e haside =>
      have houtcome : Action.outcome (run.invoke o capabilitySlot []) w =
          (.ok (.error e), { w' with issued := issued }) := by rw [Action.outcome, hinvoke]
      refine ⟨w', haside, ?_⟩
      rw [Action.bind_apply_ok houtcome]
      exact (fst_boundTo _ o).trans (congrArg Except.ok (bound?_issued w' issued o))
  | @lapse w' _ e haside hgone hafter =>
      have houtcome : Action.outcome (run.invoke o capabilitySlot []) w = (.ok (.error e), after) := by
        rw [Action.outcome, hinvoke]
      refine ⟨w', haside, ?_⟩
      rw [Action.bind_apply_ok houtcome, hgone]
      exact congrArg Prod.fst hafter.boundTo_apply

end World

namespace Runner

variable {run : Runner} {w : World} {p : PlatformId} {this : ObjectRef} {n : Nat} {op : Method}

/-- What an object is bound to is looked up with nothing held for arguments. -/
theorem holding_boundTo {found : Option InstanceId} {w' : World} (h : World.boundTo this w = (.ok found, w')) :
    World.holding (([] : List Value).flatMap (·.holders)) (World.boundTo this) w =
      (.ok found, { w' with held := w.held }) := by
  rw [World.holding, Action.finally_]
  exact congrArg (fun r : Except Halt (Option InstanceId) × World => (r.1, { r.2 with held := w.held })) h

/-- What an object is bound to answers the capability's operation with itself. -/
theorem tells_route {id : InstanceId} (hcapability : op.declaring = capabilityName) (hbound : w.bound? this = some id) :
    w.Tells this ((World.holding [.instance id] (run.route p id op []) >>= fun result => pure result.box) w) := by
  rw [Action.bind_apply, World.holding, Action.finally_]
  cases hi : w.instances[id.index]? with
  | none =>
      have hroute : run.route p id op [] { w with held := [.instance id] ++ w.held } =
          (.error (.raised (.nullPointer op.text)), { w with held := [.instance id] ++ w.held }) := by
        rw [route, Action.bind_apply_ok (Action.get_apply _)]
        simp only [hi]
        rfl
      rw [hroute]
      exact .error (.refl w)
  | some i =>
      rw [run.route_apply_of_capability (w := { w with held := [.instance id] ++ w.held }) hi hcapability]
      exact .answer (.refl w) hbound

/-- The platform tells what an object is bound to when it is asked with the capability's operation: if the object is
idle and bound, or else if nothing answers for that operation. -/
theorem tells_dispatchRouted (hop : operationAt this n w = (.ok op, w)) (hcapability : op.declaring = capabilityName)
    (hstate : ((w.platform p).constructing ≠ some this ∧ ∃ id, w.Binds this id) ∨
      ∀ objects, Action.Refuses { w with objects := objects } (run.overridden p this op [])) :
    w.Tells this (run.dispatchRouted p this n [] w) := by
  rw [dispatchRouted, Action.bind_apply_ok hop, Action.bind_apply_ok (Action.get_apply w)]
  by_cases hconstructing : (w.platform p).constructing = some this
  · obtain ⟨w', issued, e, haside, hrefuses⟩ := hstate.resolve_left (fun h => h.1 hconstructing) w.objects
    simp only [if_pos hconstructing]
    rw [Action.bind_apply_error hrefuses]
    exact .error haside
  simp only [if_neg hconstructing]
  cases hbound : w.bound? this with
  | none =>
      obtain ⟨objects, hlooked, hunbound⟩ := World.boundTo_apply_of_none hbound
      have hunanswered : ¬((w.platform p).constructing ≠ some this ∧ ∃ id, w.Binds this id) := by
        rintro ⟨-, id, hbinds⟩
        exact Option.some_ne_none id ((hbinds w (.refl w)).symm.trans hbound)
      obtain ⟨w', issued, e, haside, hrefuses⟩ := hstate.resolve_left hunanswered objects
      rw [Action.bind_apply_ok (holding_boundTo hlooked)]
      dsimp only
      rw [Action.bind_apply_error hrefuses]
      refine .lapse (.refl w) hbound ?_
      rw [World.Unbound] at hunbound ⊢
      rwa [haside.objects]
  | some id =>
      have hlooked : World.boundTo this w = (.ok (some id), w) := by
        rw [World.boundTo, Action.bind_apply_ok (Action.get_apply w), hbound]
        rfl
      rw [Action.bind_apply_ok (holding_boundTo hlooked)]
      exact tells_route hcapability hbound

end Runner

/-- Where nothing that is asked for stands in the way of the capability's operation, going up for it refuses. -/
theorem World.Answered.refuses_overridden {e : Emitter} {older : TypeTable} {w w' w₀ v : World} {base b t : HostType}
    {interfaces properties interfaces' properties' : List TypeId} {pairs : List PropertyPair} {op : Method}
    {p : PlatformId} {this : ObjectRef} {n steps : Nat}
    (h : w'.Answered e older w₀ base interfaces properties interfaces' properties' pairs b t)
    (hgrown : w.types <:+ w'.types) (hnumbered : w.types.Numbered) (hstart : TypeTable.initial <:+ w.types)
    (hdeclared : ∀ i ∈ base.id :: (interfaces ++ properties), i.index < w.types.length)
    (hbase : w.types.lookup? base.id = some base)
    (hother : ∀ m, w.types.Declares base.id (interfaces ++ properties) m → m.slot ≠ capabilitySlot)
    (hclear : ∀ m, w.types.Declares base.id (interfaces ++ properties) m → ¬m.Hides op)
    (hop : (w₀.types.harvest b.id (dedupIds interfaces' ++ [.capability]))[n]? = some op)
    (hslot : op.slot = capabilitySlot) (hlookup : v.types.lookup? t.id = some t)
    (hsound : (v.platform p).accessors.Sound v.types) (hcls : this.cls = t.id) (hsteps : 3 ≤ steps) (depth : Nat) :
    Action.Refuses v ((exec steps (depth + 1)).overridden p this op []) := by
  obtain ⟨-, -, hparams⟩ := Slot.mk.inj hslot
  have haccepts : List.Forall₂ (fun t v' => v.types.accepts t v' = true) op.params [] := by
    rw [hparams]
    exact .nil
  have hsmall : op.params.length + 3 ≤ steps := by rwa [hparams]
  obtain ⟨_, _, -, -, hown⟩ := h.stands.proxy.upward hop
  have hfound := h.stands.proxy.findAccessor_own hop hown hlookup
    (h.not_hides_before hgrown hnumbered hstart hdeclared hclear hop hslot)
  obtain ⟨w'', haside, hx⟩ := h.stands.proxy.comesTo_overridden hop hown hlookup hsound hfound hcls haccepts hsmall
    depth
  rw [h.superTarget?_eq_none hgrown hnumbered hstart hdeclared hbase hother (List.mem_of_getElem? hop) hslot] at hx
  exact ⟨{ w'' with held := v.held }, w''.issued + 1, .ofException (Layer.unsupported op), haside.letGo, hx.trans rfl⟩

namespace World

/-- A subtype has the capability. -/
theorem Stands.isSubtypeOf_capability {e : Emitter} {older : TypeTable} {w w₀ : World} {base b t : HostType}
    {interfaces properties : List TypeId} (h : w.Stands e older w₀ base interfaces properties b t)
    (hstart : TypeTable.initial <:+ w.types) : w.types.isSubtypeOf t.id capabilityName = true := by
  obtain ⟨c, _, hc, hname, -⟩ := h.numbered.exists_capability hstart
  have hmem : c ∈ w.types.allInterfaces t.id := by
    rw [h.numbered.allInterfaces_eq_extendFound, TypeTable.mem_extendFound_nil]
    refine .named (List.mem_flatMap.2 ⟨t, TypeTable.mem_lineage h.lookup, ?_⟩) hc
    rw [h.proxy.interfaces]
    exact List.mem_append_right _ (List.mem_singleton_self _)
  rw [TypeTable.isSubtypeOf, List.any_eq_true.2 ⟨c, hmem, by rw [hname, beq_self_eq_true]⟩, Bool.or_true]

variable {w w₁ : World} {p : PlatformId} {base : HostType} {interfaces properties : List TypeId} {parent : Loader}
  {proxy : TypeId}

/-- **Owning.** A subtype that a platform of a sane world answers a request with lists the capability's operation, if
nothing that is asked for declares its slot. At any later time at which the table of the subtype is kept, who asks for
the script object of an object of the subtype gets what the object is bound to, and none if it is bound to none: whether
or not it is under construction, if nothing that is asked for stands in the way of the operation's accessor, and in any
case if it is idle and bound. -/
theorem instanceOf_eq_bound (hs : w.Sane) (hp : p.index < w.platforms.size)
    (hdeclared : ∀ i ∈ base.id :: (interfaces ++ properties), i.index < w.types.length)
    (hbase : w.types.lookup? base.id = some base)
    (hother : ∀ m, w.types.Declares base.id (interfaces ++ properties) m → m.slot ≠ capabilitySlot)
    (h : w.createExtensionType p base.id interfaces properties parent = (.ok proxy, w₁)) :
    ∃ t, proxy = t.id ∧ w₁.types.lookup? t.id = some t ∧
      (∃ (n : Nat) (op : Method), (w₁.types.proxy? t.id).bind (·.operations[n]?) = some op ∧ op.slot = capabilitySlot ∧
        op.declaring = capabilityName) ∧
      ∀ {w₂ : World} {o : ObjectRef} {n : Nat} {op : Method} {steps : Nat} (depth : Nat), w₁.Later w₂ →
        w₂.KeepsTable t → o.cls = t.id → (w₂.types.proxy? t.id).bind (·.operations[n]?) = some op →
        op.slot = capabilitySlot → n < 0x80000000 → 16 ≤ steps →
        ((∀ m, w.types.Declares base.id (interfaces ++ properties) m → ¬m.Hides op) ∨
          (w₂.platform p).constructing ≠ some o ∧ ∃ id, w₂.Binds o id) →
        ∃ w', w₂.Aside w' ∧ ((exec steps (depth + 3)).instanceOf o w₂).1 = .ok (w'.bound? o) := by
  obtain ⟨hlater, -⟩ := later_createExtensionType (w := w) p parent fun _ => hdeclared
  rw [h] at hlater
  obtain ⟨e, older, w₀, interfaces', properties', pairs, b, t, rfl, hprovides, ha⟩ :=
    provides_of_createExtensionType hs hp hdeclared hbase h
  refine ⟨t, rfl, ha.stands.lookup, ?_,
    fun {w₂ o n op steps} depth hlater₂ htable hcls hop hslot hn hsteps hstate => ?_⟩
  · obtain ⟨op, hop, hslot⟩ := List.mem_map.1
      (ha.capability_mem_slots hlater.types hs.numbered hs.start hdeclared hother)
    obtain ⟨n, hn⟩ := List.getElem?_of_mem hop
    refine ⟨n, op, ?_, hslot, (ha.eq_capability hlater.types hs.numbered hs.start hdeclared hother hop hslot).1⟩
    rw [ha.stands.proxy.proxy?_eq ha.stands.lookup]
    exact hn
  have hs₁ := hlater.sane hs
  have hs₂ := hlater₂.sane hs₁
  have hstands := ha.stands.later hlater₂.types hs₂.numbered
  have hroutes := (hprovides.later hlater₂ hs₁).routes hs₂ htable
  replace hop := hstands.getElem?_operations hop
  obtain ⟨hcapability, hvirtual⟩ :=
    ha.eq_capability hlater.types hs.numbered hs.start hdeclared hother (List.mem_of_getElem? hop) hslot
  obtain ⟨-, hreturns, hparams⟩ := Slot.mk.inj hslot
  obtain ⟨thunk, hthunk, hinvoke⟩ :=
    hstands.proxy.invoke_apply hop hvirtual hstands.lookup hcls (exec steps (depth + 3))
  have haccepts : List.Forall₂ (fun t v => w₂.types.accepts t v = true) op.params [] := by
    rw [hparams]
    exact .nil
  refine Tells.instanceOf (hcls ▸ hstands.isSubtypeOf_capability hs₂.start) ?_
  rw [← hslot, hinvoke]
  refine .of_comesTo (hstands.proxy.comesTo_thunk hop hthunk hn hroutes
    (hcls ▸ TypeTable.mem_lineage hroutes.lookup) haccepts (by rwa [hparams]) depth fun w' haside =>
      .refl (letsGo_dispatchRouted ..)) (fun w' haside => ?_) fun types id => ?_
  · refine Runner.tells_dispatchRouted
      (hstands.proxy.operationAt_apply hop (hroutes.aside haside).lookup hcls) hcapability ?_
    rcases hstate with hclear | ⟨hidle, id, hbinds⟩
    · refine .inr fun objects => ?_
      exact ha.refuses_overridden (v := { w' with objects := objects }) hlater.types hs.numbered hs.start hdeclared
        hbase hother hclear hop hslot (hroutes.aside haside).lookup (hroutes.aside haside).accessors hcls
        (Nat.le_trans (by decide) hsteps) depth
    · exact .inl ⟨haside.constructing p ▸ hidle, id, hbinds.aside haside⟩
  · rw [hreturns]
    rfl

/-- A script object is what its bridge is told to belong to while it is alive. -/
theorem instanceOf_eq_bound_relay : ∃ w, (exec 30 6).extend .first relayScript [] [] relayWorld = (.ok (.ok ⟨0⟩), w) ∧
    ((exec 16 3).instanceOf valveObject (w.holdingInstance ⟨0⟩)).1 = .ok (some ⟨0⟩) := by
  obtain ⟨w, ⟨-, hbridges, -⟩, hextend⟩ := exists_hasRelay
  refine ⟨_, hextend, ?_⟩
  obtain ⟨proxy, w₁, hcreated, hmade⟩ := Runner.created_of_extend hextend
  have hrequest : relayWorld.createExtensionType .first relay.id [] [] .system = (.ok proxy, w₁) := hcreated
  -- the operations of the class have a parameter, and that of the capability has none
  have hparams (m : Method) (hm : relayWorld.types.Declares relay.id ([] ++ []) m) :
      m.params = [.primitive .double] := by
    have hmethods : relayWorld.types.methodsOf relay.id = [relayPass, relayShow] := rfl
    rw [List.nil_append, ← sane_relayWorld.numbered.mem_methodsOf, hmethods, List.mem_pair] at hm
    rcases hm with rfl | rfl <;> rfl
  have hother (m : Method) (hm : relayWorld.types.Declares relay.id ([] ++ []) m) : m.slot ≠ capabilitySlot :=
    fun hslot => List.cons_ne_nil _ _ ((hparams m hm).symm.trans (congrArg Slot.params hslot))
  obtain ⟨t, rfl, hlookup, -, htells⟩ :=
    instanceOf_eq_bound sane_relayWorld (by decide) (by decide) rfl hother hrequest
  have hlater := Runner.later_createInstance hmade
  obtain ⟨o, hmade⟩ := Runner.made_of_createInstance hmade
  obtain rfl := hbridges.bridge hmade
  have hid : (⟨4⟩ : TypeId) = t.id := hmade.cls
  obtain ⟨op, hop, hslot, -⟩ := hbridges.operation (n := 0) rfl hid
  have htable : (w.extendBy relayScript).2.KeepsTable t := by
    obtain ⟨hrequested, -⟩ := later_createExtensionType (w := relayWorld) .first .system fun _ => declared_relayScript
    rw [hcreated] at hrequested
    have hsane := hlater.sane (hrequested.sane sane_relayWorld)
    exact hbridges.keepsTable hid
      (hsane.numbered.lookup?_of_mem (hlater.types.subset (TypeTable.mem_of_lookup? hlookup).1))
  have hheld : w₁.Later ((w.extendBy relayScript).2.holdingInstance ⟨0⟩) := hlater.trans (.of_held _ _)
  have hclear (m : Method) (hm : relayWorld.types.Declares relay.id ([] ++ []) m) : ¬m.Hides op := fun hhides => by
    obtain ⟨-, -, hnone⟩ := Slot.mk.inj hslot
    exact List.cons_ne_nil _ _ ((hparams m hm).symm.trans (hhides.1.trans hnone))
  obtain ⟨w', haside, htold⟩ :=
    htells (n := 0) 0 hheld htable hmade.cls hop hslot (by decide) (Nat.le_refl 16) (.inl hclear)
  rw [htold, hmade.binds w' haside]

end World

/-! ## A class that declares the operation itself -/

/-- An operation of the name and the type of the capability's. -/
def claimedInstance : Method :=
  ⟨"instance", [], .object, .public, "Gauge", ⟨2⟩, .native fun _ _ => .done .null⟩

/-- A class with this operation and a constructor. -/
def claimed : HostType :=
  { gauge [claimedInstance] with constructors := [⟨[], .public, "Gauge", .inherited none⟩] }

/-- A script type that extends it and whose function answers with the first script object. -/
def claimedScript : ScriptType :=
  TypeTable.extendScript (claimed :: TypeTable.initial) "Script" claimed.id [] []
    [.scripted "instance" (some 0) fun _ _ _ => .done (.foreign (.interpreter ⟨0⟩))]

/-- The world with the class, whose platform does not verify what it generates. -/
def claimedWorld : World :=
  { World.initial { verifyCode := false } with types := claimed :: TypeTable.initial }

namespace World

/-- Makes one more script object with a bridge of the subtype. -/
def extendAgain (w : World) : Except Halt (Except PlatformError InstanceId) × World :=
  (exec 30 6).createInstance .first ⟨4⟩ claimedScript [] [] (w.extendBy claimedScript).2

/-- Whether two script objects are made, and the bridge of the second one, which is bound to it, is told to belong to
the first one. -/
def HasClaim (w : World) : Prop :=
  (w.extendBy claimedScript).1 = .ok (.ok ⟨0⟩) ∧
  w.extendAgain.1 = .ok (.ok ⟨1⟩) ∧
  (w.extendAgain.2.holdingInstance ⟨1⟩).bound? ⟨1, ⟨4⟩⟩ = some ⟨1⟩ ∧
  ((exec 30 6).instanceOf ⟨1, ⟨4⟩⟩ (w.extendAgain.2.holdingInstance ⟨1⟩)).1 = .ok (some ⟨0⟩)

instance : DecidablePred HasClaim := fun _ => inferInstanceAs (Decidable (_ ∧ _))

/-- What is told of an object of a subtype of the class is another script object than the one that it is bound to. -/
theorem instanceOf_eq_bound_differs : ∃ w w₁ w₂,
    claimedWorld.createExtensionType .first claimed.id [] [] .system = (.ok ⟨4⟩, w) ∧
    (exec 30 6).createInstance .first ⟨4⟩ claimedScript [] [] w = (.ok (.ok ⟨0⟩), w₁) ∧
    (exec 30 6).createInstance .first ⟨4⟩ claimedScript [] [] w₁ = (.ok (.ok ⟨1⟩), w₂) ∧
    (w₂.holdingInstance ⟨1⟩).bound? ⟨1, ⟨4⟩⟩ = some ⟨1⟩ ∧
    ((exec 30 6).instanceOf ⟨1, ⟨4⟩⟩ (w₂.holdingInstance ⟨1⟩)).1 = .ok (some ⟨0⟩) := by
  have hgenerate : ∃ w : World, World.generate ⟨.weave, false⟩ claimed.id [] [] .system (some ⟨0⟩) claimedWorld =
      (.ok ⟨4⟩, w) ∧ w.HasClaim := by
    apply exists_generate (P := HasClaim)
    · rfl
    · rfl
    · rw [TypeTable.harvestAbstract, TypeTable.harvest, TypeTable.interfaceList, TypeTable.extendFound]
      rfl
    · rfl
    · exact TypeTable.harvest_singleton rfl rfl rfl
    · apply exists_eq_ok_of_decide (P := fun w : World => HasClaim { w with installed := _ })
      decide +kernel
    · rfl
  obtain ⟨w, hw, hfirst, hsecond, hbound, hanswer⟩ := hgenerate
  exact ⟨_, _, _, createExtensionType_apply_of_generate rfl rfl rfl hw, Prod.ext hfirst rfl, Prod.ext hsecond rfl,
    hbound, hanswer⟩

end World

end Interpose
