import Interpose.Proofs.Ambiguity
import Interpose.Proofs.Numbering
import Interpose.Proofs.Searches
import Interpose.Script.Instance

/-!
# Calls that go around dispatch

What an operation overrides is run by the accessor that is found for it, which no dispatcher is asked about. So a
script that runs it comes to where the way up of the operation ends. For a subtype of a subtype that is the thunk of
the first, which asks the dispatcher again.
-/

namespace Interpose

open Interpose.Action (ComesTo)

/-- Coming to a computation that comes to a third one. -/
theorem Action.ComesTo.trans {x y z : Action Value} {w : World} {f g : TypeTable → Value → Except HostError Value}
    (h : ComesTo w x y f) (h' : ∀ w', w.Aside w' → ComesTo w' y z g) :
    ComesTo w x z fun types v => g types v >>= f types := by
  obtain ⟨w', haside, hx⟩ := h
  obtain ⟨w'', haside', hy⟩ := h' w' haside
  refine ⟨w'', haside.trans haside', ?_⟩
  rw [hx, hy]
  rcases z w'' with ⟨_ | v, after⟩
  · rfl
  · dsimp only
    cases g after.types v <;> rfl

/-! ## Stubs -/

section

variable {e : Emitter} {owner : TypeId} {name label : String} {a m : Method} {d : MethodDef} {w : World}
  {this : ObjectRef} {args : List Value} {steps : Nat} (hd : Layer.stub label a = .ok d)
  (hmade : e.method owner name d = .ok m) (hbelow : (w.types.lineage this.cls).any (·.id == owner) = true)
  (hargs : args.length = a.params.length) (hsmall : a.params.length + 1 < 0x10000)
  (hsteps : a.params.length + 3 ≤ steps)

include hd hmade hbelow hargs hsmall hsteps

/-- Running a stub goes up to nothing. -/
theorem Emitter.runTask_stub (run : Runner) : run.runTask steps (.method m this args) w =
    World.holding [.type owner] (Layer.wentUp run a this args none) w := by
  rw [Layer.stub, bind_eq_ok] at hd
  obtain ⟨code, hcode, hd⟩ := hd
  rw [pure_eq_ok] at hd
  subst hd
  obtain ⟨unit, hunit, rfl⟩ := Emitter.method_eq_ok.1 hmade
  refine (congrFun (Runner.runTask_compiled rfl ?_) _).trans ?_
  · exact hargs
  · exact Layer.run_goUp hcode hunit hsmall hargs (fun _ hm => absurd hm (Option.not_mem_none _))
      (by rw [World.isDefined, hbelow, Bool.true_or]) hsteps

/-- A stub raises that nothing implements its operation. -/
theorem Emitter.comesTo_stub (depth : Nat) (f : TypeTable → Value → Except HostError Value) :
    ComesTo w (exec steps (depth + 1) (.method m this args))
      (Layer.hostSide (exec steps depth) a this args none) f := by
  refine .congr (f := fun _ v => .ok (if a.returns.isVoid then .void else v)) (.holding (.of_eq
    (Emitter.runTask_stub hd hmade ?_ hargs hsmall hsteps _) (.holding (Layer.comesTo_wentUp ..)))) ?_
  · exact hbelow
  · intro w' v after _ hraised
    cases hraised

end

/-! ## Where the way up ends -/

/-- What is run where the way up of an operation ends: what raises that nothing implements it, or the body. -/
def Layer.Ending.Runs (run : Runner) (op : Method) (this : ObjectRef) (args : List Value) (y : Action Value) :
    Ending → Prop
  | .nowhere => y = hostSide run op this args none
  | .stub => ∃ a : Method, a.slot = op.slot ∧ y = hostSide run a this args none
  | .body m => y = run (.method m this args)

namespace World

section

variable {e : Emitter} {older : TypeTable} {w w₀ : World} {base b t : HostType}
  {interfaces properties : List TypeId} {pairs : List PropertyPair} {n : Nat} {op own m : Method} {s : Slot}

/-- The body that the way up of a subtype ends with is declared by the base, or by one of the interfaces of the base
and with properties. -/
theorem Stands.declares_of_ending (h : w.Stands e older w₀ base interfaces properties b t)
    (hm : older.ending base properties s = .body m) :
    w.types.Declares base.id properties m ∧ m.slot = s ∧ m.isAbstract = false := by
  obtain ⟨new, hall, hnumbered, hlt⟩ := h.grown_base
  have hlayers := h.numbered_layers
  rw [h.types] at hlayers
  have hproperties : ∀ i ∈ properties, i.index < older.length := fun i hi =>
    h.bridge.named_lt hlayers.2.2.2 i (List.mem_append_left _ (Layer.mem_bridgeInterfaces.2 (.inr hi)))
  rw [TypeTable.ending] at hm
  split at hm
  · cases hm
  split at hm
  · cases hm
  rename_i k hreached
  cases hm
  obtain ⟨hreached, hconcrete⟩ := Option.filter_eq_some_iff.1 hreached
  rw [TypeTable.reached?] at hreached
  have hfound := List.find?_some hreached
  refine ⟨?_, (Method.and_occupies_iff.1 hfound).2, by simpa using hconcrete⟩
  rw [hall, hnumbered.declares_append hlt hproperties]
  exact hnumbered.of_append.declares_of_mem_reached h.start h.base (List.mem_of_find?_eq_some hreached)

/-- The host side of an operation comes to what is run where the way up ends, in every world with the subtype. -/
theorem Stands.exists_runs {this : ObjectRef} {args : List Value} {steps : Nat}
    (h : w.Stands e older w₀ base interfaces properties b t)
    (hbuilt : e.Built older base interfaces properties pairs b t)
    (hop : (w₀.types.harvest b.id (dedupIds interfaces ++ [.capability]))[n]? = some op)
    (hargs : args.length = op.params.length) (hsteps : op.params.length + 3 ≤ steps) (depth : Nat) :
    ∃ y, (older.ending base properties op.slot).Runs (exec steps (depth + 1)) op this args y ∧
      ∀ w' : World, w'.Stands e older w₀ base interfaces properties b t → t ∈ w'.types.lineage this.cls →
        ComesTo w' (Layer.hostSide (exec steps (depth + 1)) op this args (Layer.superTarget? w₀.types b.id op)) y
          fun _ v => .ok v := by
  have hnumbered := h.numbered_layers
  rw [h.types] at hnumbered
  have hends := hbuilt.endsIn hnumbered.2.2.2 (h.types ▸ List.mem_of_getElem? hop)
  rw [h.types]
  generalize older.ending base properties op.slot = ending at hends
  cases hends with
  | nowhere htarget =>
      rw [htarget]
      exact ⟨_, rfl, fun w' _ _ => .refl rfl⟩
  | body htarget =>
      rw [htarget]
      exact ⟨_, rfl, fun w' _ _ => .refl (held_exec steps (depth + 1) _ w')⟩
  | @stub m a d htarget hm hd hmade =>
      have hslot : a.slot = op.slot := by
        obtain ⟨_, -, rfl⟩ := Emitter.method_eq_ok.1 hmade
        exact (Layer.stub_eq_ok hd).1.symm.trans (Layer.slot_of_superTarget? htarget)
      obtain ⟨-, -, hparams⟩ := Slot.mk.inj hslot
      obtain ⟨_, _, hthunk, -, -⟩ := h.proxy.dispatching hop
      have hsmall := Layer.params_lt_of_thunk hthunk
      rw [← hparams] at hsmall hargs hsteps
      rw [htarget]
      refine ⟨_, ⟨a, hslot, rfl⟩, fun w' h' hbelow => Emitter.comesTo_stub hd hmade ?_ hargs hsmall hsteps depth _⟩
      exact List.any_eq_true.2
        ⟨b, (h'.numbered.lineage_suffix hbelow).subset h'.bridge_mem_lineage, beq_self_eq_true _⟩

/-- The accessor of an operation comes to what is run where the way up ends. -/
theorem Stands.comesTo_accessor {this : ObjectRef} {args : List Value} {steps : Nat}
    (h : w.Stands e older w₀ base interfaces properties b t)
    (hbuilt : e.Built older base interfaces properties pairs b t)
    (hop : (w₀.types.harvest b.id (dedupIds interfaces ++ [.capability]))[n]? = some op)
    (hown : t.methods[2 * n + 1]? = some own) (hbelow : t ∈ w.types.lineage this.cls)
    (hargs : args.length = op.params.length) (hsteps : op.params.length + 3 ≤ steps) (depth : Nat) :
    ∃ y, (older.ending base properties op.slot).Runs (exec steps (depth + 1)) op this args y ∧
      ∀ w', w.Aside w' → ComesTo w' (exec steps (depth + 2) (.method own this args)) y
        fun _ v => .ok (if op.returns.isVoid then .void else v) := by
  obtain ⟨y, hy, hcomes⟩ := h.exists_runs hbuilt hop hargs hsteps depth
  refine ⟨y, hy, fun w' haside => ?_⟩
  exact (h.proxy.comesTo_accessor hop hown (haside.types ▸ hbelow) hargs hsteps (depth + 1)).trans
    fun w'' haside' => hcomes w'' (h.aside (haside.trans haside')) ((haside.trans haside').types ▸ hbelow)

end

/-- What a script runs by name is what the first operation of its bridge overrides that accepts the arguments, or else
the first with as many parameters. -/
theorem overriddenNamed_apply {w : World} {o : ObjectRef} {p : PlatformId} {i : Instance} {operations : List Method}
    (run : Runner) (id : InstanceId) (name : String) (given : List Value) (hi : w.instances[id.index]? = some i)
    (hbridge : i.bridge = o) (hplatform : i.platform = p)
    (hoperations : (w.types.proxy? o.cls).map (·.operations) = some operations)
    (hsome : ∃ op ∈ operations, op.name = name ∧ op.params.length = given.length) :
    ∃ (n : Nat) (op : Method), operations[n]? = some op ∧ op.name = name ∧ op.params.length = given.length ∧
      (w.types.acceptsArgs op.params given = true ∨ ∀ q ∈ operations, q.name = name →
        q.params.length = given.length → w.types.acceptsArgs q.params given = false) ∧
      run.overriddenNamed id name given w = run.overridden p o op given w := by
  subst hbridge hplatform
  have hcandidate (q : Method) : (q.name == name && q.params.length == given.length) = true ↔
      q.name = name ∧ q.params.length = given.length := by simp
  rw [Runner.overriddenNamed, Action.bind_apply_ok (Action.get_apply w)]
  simp only [hi, hoperations, Option.getD_some]
  generalize hcandidates : operations.filter (fun m => m.name == name && m.params.length == given.length) =
    candidates
  have hmem (q : Method) : q ∈ candidates ↔ q ∈ operations ∧ q.name = name ∧ q.params.length = given.length := by
    rw [← hcandidates, List.mem_filter, hcandidate]
  have hplace (q : Method) (hq : q ∈ candidates) : ∃ n : Nat, operations[n]? = some q :=
    List.getElem?_of_mem ((hmem q).1 hq).1
  cases hfirst : candidates.find? fun m => w.types.acceptsArgs m.params given with
  | some op =>
      have hop := List.mem_of_find?_eq_some hfirst
      obtain ⟨n, hn⟩ := hplace op hop
      obtain ⟨-, hname, hlength⟩ := (hmem op).1 hop
      have haccepts := List.find?_some hfirst
      exact ⟨n, op, hn, hname, hlength, .inl haccepts, rfl⟩
  | none =>
      obtain ⟨op, hop, hnamed⟩ := hsome
      obtain ⟨first, rest, rfl⟩ := List.exists_cons_of_ne_nil (List.ne_nil_of_mem ((hmem op).2 ⟨hop, hnamed⟩))
      obtain ⟨n, hn⟩ := hplace first List.mem_cons_self
      obtain ⟨-, hname, hlength⟩ := (hmem first).1 List.mem_cons_self
      refine ⟨n, first, hn, hname, hlength, .inr fun q hq hqname hqlength => ?_, rfl⟩
      have hrejected := List.find?_eq_none.1 hfirst q ((hmem q).2 ⟨hq, hqname, hqlength⟩)
      simpa using hrejected

end World

/-! ## Subtypes of subtypes -/

namespace World

section

variable {e : Emitter} {older : TypeTable} {w w₀ : World} {base base' b t t' : HostType}
  {interfaces properties interfaces' properties' : List TypeId} {p q : PlatformId} {n m : Nat}
  {op inner own : Method} {o : ObjectRef} {args : List Value} {steps : Nat}

/-- What an operation of a subtype of a subtype overrides comes to the dispatcher of the first, if the first has the
slot as well. -/
theorem Stands.comesTo_overridden_again (h : w.Stands e older w₀ t interfaces' properties' b t')
    (hs : w.Sane) (hinner : w.Provides p base interfaces properties t) (htable : w.KeepsTable t)
    (hbelow : t ∈ w.types.lineage t'.id)
    (hop : (w.types.proxy? t'.id).bind (·.operations[m]?) = some op)
    (hfound : w.types.findAccessor t'.id op = .ok own) (hown : t'.methods[2 * m + 1]? = some own)
    (hop' : (w.types.proxy? t.id).bind (·.operations[n]?) = some inner) (hn : n < 0x80000000)
    (hslot : inner.slot = op.slot) (hvirtual : inner.isVirtual = true) (hcls : o.cls = t'.id)
    (haccepts : List.Forall₂ (fun t v => w.types.accepts t v = true) op.params args)
    (hsteps : 6 * op.params.length + 16 ≤ steps) (depth : Nat) :
    ComesTo w ((exec steps (depth + 4)).overridden q o op (args.map Value.box))
      ((exec steps (depth + 1)).dispatchRouted p o n (args.map Value.box)) fun types v =>
        types.unboxOrCast op.returns v >>= fun v => .ok (if op.returns.isVoid then .void else v) := by
  obtain ⟨-, hreturns, hparams⟩ := Slot.mk.inj hslot
  obtain ⟨e₁, older₁, w₁, pairs, b₁, hstands, hbuilt⟩ := hinner.subtype.built
  have hclass : t.isInterface = false := by
    obtain ⟨d, -, ht⟩ := hbuilt.proxy
    rw [HostType.isInterface, ht.kind]
    rfl
  have hlisted := h.getElem?_operations hop
  have hlisted' := hstands.getElem?_operations hop'
  obtain ⟨thunk, hthunk, hthunkSlot, hcomes⟩ := comesTo_number hs hinner htable hop' hn (hcls ▸ hbelow)
  have hmem := List.mem_of_getElem? hthunk
  have hmodifiers : thunk.modifiers = Layer.overrideModifiers inner := by
    obtain ⟨_, _, hmethod, -, hmodifiers, -⟩ := hstands.proxy.runTask_thunk hlisted'
    rwa [Option.some.inj (hthunk.symm.trans hmethod)]
  -- the way up ends with the thunk, which has a body and is seen from below
  have hreached : w.types.findVirtual? t.id op.slot = some thunk := by
    rw [← hslot, ← hthunkSlot]
    exact TypeTable.findVirtual?_of_mem hstands.lookup hstands.proxy.slots hmem
      ((Layer.isVirtual_of_modifiers hmodifiers).trans hvirtual)
  have hoffered : thunk.isOffered = true := (Layer.isOffered_of_stub hthunkSlot hmodifiers).trans
    (Emitter.Bridge.offered_of_mem_harvest (List.mem_of_getElem? hlisted')).1
  have hvisible : (thunk.modifiers.isPublic || thunk.modifiers.isProtected) = true :=
    Bool.or_eq_true_iff.2 (Method.isOffered_iff.1 hoffered).2.2.1
  have hchain : thunk ∈ (w.types.lineage t.id).flatMap (·.methods) :=
    List.mem_flatMap.2 ⟨t, TypeTable.mem_lineage hstands.lookup, hmem⟩
  have htarget := h.superTarget?_eq (List.mem_of_getElem? hlisted) hreached
    (hstands.proxy.isAbstract_thunk hlisted' hthunk) ⟨hvisible, .inl ⟨hclass, hchain⟩⟩
  have hsmall : op.params.length + 3 ≤ steps := by omega
  have hup := h.proxy.comesTo_overridden hlisted hown h.lookup (hs.accessors q) hfound hcls haccepts hsmall (depth + 3)
  rw [htarget] at hup
  rw [← hparams] at haccepts hsteps
  rw [← hreturns] at hup ⊢
  exact hup.trans (hcomes depth haccepts hsteps)

end

end World

/-! ## Objects of both subtypes -/

/-- The world with an object of each of two subtypes that is bound to a script object. -/
def World.withPourers (w : World) (t t' : HostType) : World :=
  { w with
    objects := #[⟨t.id, [], .bound ⟨0⟩⟩, ⟨t'.id, [], .bound ⟨1⟩⟩]
    instances := #[⟨valveScript, ⟨0, t.id⟩, .first, []⟩, ⟨valveScript, ⟨1, t'.id⟩, .first, []⟩]
    held := [.instance ⟨0⟩, .instance ⟨1⟩] }

namespace World.HasPouring

variable {w : World} {t t' : HostType}

/-- Objects, script objects and what is held make no difference to the subtypes. -/
theorem of_objects (h : w.HasPouring t t') (objects : Array ObjectState) (instances : Array Instance)
    (held : List Holder) :
    { w with objects := objects, instances := instances, held := held }.HasPouring t t' where
  sane := h.sane.grown List.suffix_rfl h.sane.numbered (fun _ _ hd => hd) (fun _ _ hd => hd) rfl rfl (fun _ => rfl)
    h.sane.accessors fun _ _ _ hentry => .inl hentry
  idle := h.idle
  inner := by
    obtain ⟨interfaces, properties, hinner⟩ := h.inner
    exact ⟨interfaces, properties, hinner.grown List.suffix_rfl h.sane.numbered (fun _ _ hd => hd) fun _ _ hd => hd⟩
  outer := by
    obtain ⟨interfaces, properties, houter⟩ := h.outer
    exact ⟨interfaces, properties, houter.grown List.suffix_rfl h.sane.numbered (fun _ _ hd => hd) fun _ _ hd => hd⟩
  table := h.table
  below := h.below
  slots := h.slots
  slots' := h.slots'
  isVirtual := h.isVirtual
  declaring' := h.declaring'

theorem withPourers (h : w.HasPouring t t') : (w.withPourers t t').HasPouring t t' :=
  h.of_objects _ _ _

/-- The object of the second subtype is bound to its script object. -/
theorem bound (h : w.HasPouring t t') : (w.withPourers t t').Bound .first ⟨1, t'.id⟩ ⟨1⟩
    ⟨valveScript, ⟨1, t'.id⟩, .first, []⟩ where
  idle := by
    rw [h.withPourers.idle]
    nofun
  binds := by
    have hstate : (w.withPourers t t').objects[1]? = some ⟨t'.id, [], .bound ⟨1⟩⟩ := rfl
    exact World.binds_of_mem_roots hstate rfl (List.mem_append_left _ (List.mem_cons_of_mem _ List.mem_cons_self))
  «instance» := rfl
  bridge := rfl

end World.HasPouring

/-- What the subtypes list under the name is the operation that opens. -/
theorem slot_eq_of_name {op : Method} (hop : op.slot ∈ (withCapability [valveOpen, valvePour, valveShut]).map (·.slot))
    (hname : op.name = "open") : op.slot = valveOpen.slot := by
  have hnames : ∀ s ∈ (withCapability [valveOpen, valvePour, valveShut]).map (·.slot), s.name = "open" →
      s = valveOpen.slot := by decide
  exact hnames op.slot hop hname

/-- Only the operation that opens stands in its own way. -/
theorem slot_eq_of_hides {q op : Method} (hq : q.slot ∈ (withCapability [valveOpen, valvePour, valveShut]).map (·.slot))
    (hop : op.slot = valveOpen.slot) (h : q.Hides op) : q.slot = valveOpen.slot := by
  have hplain : ∀ s ∈ (withCapability [valveOpen, valvePour, valveShut]).map (·.slot),
      ¬Naming.accessorMark.toList <+: s.name.toList ∧ '$' ∉ s.name.toList := by decide
  obtain ⟨hmark, hdollar⟩ := hplain q.slot hq
  have hname : op.name = "open" := (Slot.mk.inj hop).1
  rcases h.2 with haccessor | haccessor
  · have hprefix : Naming.accessorMark.toList <+: op.accessorName.toList := op.slot.prefix_accessor
    rw [← haccessor] at hprefix
    exact absurd hprefix hmark
  · exact slot_eq_of_name hq ((Naming.eq_of_accessor haccessor hdollar (by rw [hname]; decide)).trans hname)

/-- It is listed under the name. -/
theorem exists_named_of_slots {operations : List Method} (h : valveOpen.slot ∈ operations.map (·.slot)) :
    ∃ op ∈ operations, op.name = "open" ∧ op.params.length = 0 := by
  obtain ⟨op, hop, hslot⟩ := List.mem_map.1 h
  obtain ⟨hname, -, hparams⟩ := Slot.mk.inj hslot
  exact ⟨op, hop, hname, hparams ▸ rfl⟩

/-- What is found on the class to open it is its own operation. -/
theorem ending_valve {older : TypeTable} {properties : List TypeId} (hvalve : older.lookup? valve.id = some valve) :
    older.ending valve properties valveOpen.slot = .body valveOpen := by
  obtain ⟨rest, hlineage⟩ := TypeTable.lineage_of_lookup? hvalve
  rw [TypeTable.ending, if_neg, TypeTable.reached?]
  · have hchain : Layer.bridgeSuperclass valve = valve.id := rfl
    rw [hchain, hlineage]
    rfl
  · rw [List.any_eq_true, TypeTable.exists_harvestAbstract_iff, hlineage]
    rintro ⟨-, a, ha, -, habstract⟩
    cases ha
    exact absurd habstract (by decide)

/-- On a subtype that lists nothing else, the accessor of the operation that opens is found. -/
theorem exists_own_of_slots {w : World} {base t : HostType} {interfaces properties : List TypeId} {slots : List Slot}
    {n : Nat} {op : Method} (h : w.HasSubtype base interfaces properties t)
    (hslots : ((w.types.proxy? t.id).map (·.operations)).map (List.map (·.slot)) = some slots)
    (hall : slots ⊆ (withCapability [valveOpen, valvePour, valveShut]).map (·.slot))
    (hop : (w.types.proxy? t.id).bind (·.operations[n]?) = some op) (hslot : op.slot = valveOpen.slot) :
    ∃ own, t.methods[2 * n + 1]? = some own ∧ w.types.findAccessor t.id op = .ok own := by
  obtain ⟨e, older, w₀, b, hstands⟩ := h.stands
  have hlisted := hstands.getElem?_operations hop
  rw [hstands.operations] at hslots
  obtain ⟨k, q, _, own, -, hq, hhides, -, -, hown, hfound⟩ := hstands.proxy.exists_found hlisted
  have hqslot : q.slot = valveOpen.slot := slot_eq_of_hides
    (hall (Option.some.inj hslots ▸ List.mem_map_of_mem (List.mem_of_getElem? hq))) hslot hhides
  obtain rfl := hstands.proxy.index_eq hq hlisted (hslot.trans hqslot.symm)
  obtain rfl : q = op := Option.some.inj (hq.symm.trans hlisted)
  have hfound := hfound hstands.lookup
  rw [if_neg q.name_ne_accessorName] at hfound
  exact ⟨own, hown, hfound⟩

namespace World

/-- **Going around dispatch.** What an operation of a subtype overrides is run by the accessor of the first operation of
the table that stands in its way, unless that is itself named as accessors are. Whatever dispatchers there are, it comes
to what is run where the way up of that operation ends: to what raises that nothing implements it, or to a body that
was declared below the subtype, by its base or an interface. What a script runs by name is that for an operation of
the table. -/
theorem overridden_bypasses {w : World} {base t : HostType} {interfaces properties : List TypeId} {p : PlatformId}
    {o : ObjectRef} (h : w.HasSubtype base interfaces properties t)
    (hsound : (w.platform p).accessors.Sound w.types) (hcls : o.cls = t.id) :
    ∃ (older : TypeTable) (operations : List Method), older <:+ w.types ∧ older.lookup? base.id = some base ∧
      (w.types.proxy? t.id).map (·.operations) = some operations ∧
      (∀ (n : Nat) op, operations[n]? = some op → ∃ k q thunk own, k ≤ n ∧ operations[k]? = some q ∧
        q.Hides op ∧ ¬ op.IsHidden operations k ∧
        t.methods[2 * k]? = some thunk ∧ t.methods[2 * k + 1]? = some own ∧
        w.types.findAccessor t.id op = .ok (if q.name = op.accessorName then thunk else own) ∧
        (∀ m, older.ending base properties q.slot = .body m →
          w.types.Declares base.id properties m ∧ m.slot = q.slot ∧ m.isAbstract = false) ∧
        (q.name ≠ op.accessorName → ∀ {given args : List Value} {steps : Nat} (depth : Nat),
          w.types.coerceArgs op.params given = .ok args → op.params.length + 3 ≤ steps →
          ∃ y, (older.ending base properties q.slot).Runs (exec steps (depth + 1)) q o args y ∧
            ComesTo w ((exec steps (depth + 2)).overridden p o op given) y
              fun _ v => .ok (if q.returns.isVoid then .void else v))) ∧
      ∀ (run : Runner) (id : InstanceId) i name given, w.instances[id.index]? = some i → i.bridge = o →
        i.platform = p → (∃ op ∈ operations, op.name = name ∧ op.params.length = given.length) →
        ∃ (n : Nat) (op : Method), operations[n]? = some op ∧ op.name = name ∧
          op.params.length = given.length ∧
          (w.types.acceptsArgs op.params given = true ∨ ∀ q ∈ operations, q.name = name →
            q.params.length = given.length → w.types.acceptsArgs q.params given = false) ∧
          run.overriddenNamed id name given w = run.overridden p o op given w := by
  obtain ⟨e, older, w₀, pairs, b, hstands, hbuilt⟩ := h.built
  obtain ⟨new, hall, -⟩ := hstands.grown_base
  refine ⟨older, _, ⟨new, hall.symm⟩, hstands.base, hstands.operations, fun n op hop => ?_,
    fun run id i name given hi hbridge hplatform hsome => ?_⟩
  · obtain ⟨k, q, thunk, own, hk, hq, hhides, hfirst, hthunk, hown, hfound⟩ := hstands.proxy.exists_found hop
    have hfound := hfound hstands.lookup
    refine ⟨k, q, thunk, own, hk, hq, hhides, hfirst, hthunk, hown, hfound,
      fun m hm => hstands.declares_of_ending hm, fun hname {given args steps} depth hcoerced hsteps => ?_⟩
    have hlength := TypeTable.length_of_coerceArgs hcoerced
    rw [if_neg hname, ← hcls] at hfound
    rw [← hhides.1] at hlength hsteps
    obtain ⟨y, hy, hcomes⟩ := hstands.comesTo_accessor hbuilt hq hown
      (hcls ▸ TypeTable.mem_lineage hstands.lookup) hlength hsteps depth
    exact ⟨y, hy, Runner.comesTo_overridden_of_coerced hsound hfound hcoerced hcomes⟩
  · exact overriddenNamed_apply run id name given hi hbridge hplatform (hcls ▸ hstands.operations) hsome

/-- The object of the first subtype runs what the class has, although its script type overrides that. -/
theorem overridden_bypasses_pouring : ∃ (w w₁ : World) (t t' : HostType),
    pouringWorld.createExtensionType .first valve.id [] [] .system = (.ok t.id, w₁) ∧
    w₁.createExtensionType .first t.id [pouring.id] [] .system = (.ok t'.id, w) ∧
    ((exec 30 6).overriddenNamed ⟨0⟩ "open" [] (w.withPourers t t')).1 = .ok (.str "host opens") := by
  obtain ⟨w, w₁, t, t', h₁, h₂, h⟩ := exists_hasPouring
  refine ⟨w, w₁, t, t', h₁, h₂, ?_⟩
  have hw := h.withPourers
  obtain ⟨_, properties, hinner⟩ := hw.inner
  obtain ⟨older, operations, -, hvalve, hoperations, hends, hnamed⟩ :=
    overridden_bypasses (o := ⟨0, t.id⟩) hinner.subtype (hw.sane.accessors .first) rfl
  have hslots := hw.map_slots hoperations
  have hlisted {q : Method} (hq : q ∈ operations) :
      q.slot ∈ (withCapability [valveOpen, valvePour, valveShut]).map (·.slot) := by
    have hall : (withCapability valve.methods).map (·.slot) ⊆
        (withCapability [valveOpen, valvePour, valveShut]).map (·.slot) := by decide
    exact hall (hslots ▸ List.mem_map_of_mem hq)
  have hsome : ∃ op ∈ operations, op.name = "open" ∧ op.params.length = ([] : List Value).length := by
    refine exists_named_of_slots (hslots ▸ ?_)
    decide
  obtain ⟨n, op, hop, hname, -, -, happly⟩ := hnamed (exec 30 6) ⟨0⟩ _ "open" [] rfl rfl rfl hsome
  have hslot := slot_eq_of_name (hlisted (List.mem_of_getElem? hop)) hname
  obtain ⟨k, q, thunk, own, -, hq, hhides, -, -, -, -, -, hcomes⟩ := hends n op hop
  have hqslot := slot_eq_of_hides (hlisted (List.mem_of_getElem? hq)) hslot hhides
  have hqname : q.name ≠ op.accessorName :=
    (Slot.mk.inj (hqslot.trans hslot.symm)).1 ▸ op.name_ne_accessorName
  have hparams := (Slot.mk.inj hslot).2.2
  have hcoerced : (w.withPourers t t').types.coerceArgs op.params [] = .ok [] := by
    rw [hparams]
    rfl
  have hsteps : op.params.length + 3 ≤ 30 := by
    rw [hparams]
    decide
  obtain ⟨y, hy, hcomes⟩ := hcomes hqname 4 hcoerced hsteps
  rw [hqslot, ending_valve hvalve] at hy
  subst hy
  rw [happly]
  refine hcomes.fst_eq_ok (fun w' _ => rfl) fun types => ?_
  rw [(Slot.mk.inj hqslot).2.1]
  rfl

/-- What the object of the second subtype runs by name comes to the dispatcher of the first subtype. -/
theorem HasPouring.comesTo_overriddenNamed {w : World} {t t' : HostType} (h : w.HasPouring t t') :
    ComesTo (w.withPourers t t') ((exec 30 6).overriddenNamed ⟨1⟩ "open" [])
      ((exec 30 3).dispatchRouted .first ⟨1, t'.id⟩ 1 []) fun types v => types.unboxOrCast valveOpen.returns v := by
  have hw := h.withPourers
  obtain ⟨_, _, hinner⟩ := hw.inner
  obtain ⟨interfaces, _, houter⟩ := hw.outer
  obtain ⟨e, older, w₀, b, hstands⟩ := houter.subtype.stands
  have hslots := hw.map_slots' hstands.operations
  -- what is run by name is found under its own accessor
  obtain ⟨k, op, hop, hname, -, -, happly⟩ := overriddenNamed_apply (w := w.withPourers t t') (exec 30 6) ⟨1⟩ "open" []
    rfl rfl rfl hstands.operations (exists_named_of_slots (hslots ▸ by decide))
  have hslot := slot_eq_of_name (hslots ▸ List.mem_map_of_mem (List.mem_of_getElem? hop)) hname
  have hlistedOp : ((w.withPourers t t').types.proxy? t'.id).bind (·.operations[k]?) = some op := by
    rw [hstands.proxy.proxy?_eq hstands.lookup]
    exact hop
  obtain ⟨own, hown, hfound⟩ := exists_own_of_slots houter.subtype hw.slots' (List.Subset.refl _) hlistedOp hslot
  -- the first subtype lists it as well
  obtain ⟨inner, hinnerOp, hinnerSlot⟩ := TypeTable.exists_operation (n := 1) (s := valveOpen.slot) hw.slots rfl
  obtain ⟨g, hg, hinnerMem⟩ := Option.bind_eq_some_iff.1 hinnerOp
  have hvirtual := hw.isVirtual g hg inner (List.mem_of_getElem? hinnerMem)
  obtain ⟨-, hreturns, hparams⟩ := Slot.mk.inj hslot
  have hsteps : 6 * op.params.length + 16 ≤ 30 := by
    rw [hparams]
    decide
  have haccepts : List.Forall₂ (fun s v => (w.withPourers t t').types.accepts s v = true) op.params [] := hparams ▸ .nil
  have hup := hstands.comesTo_overridden_again (q := .first) (o := ⟨1, t'.id⟩) hw.sane hinner hw.table hw.below
    hlistedOp hfound hown hinnerOp (by decide) (hinnerSlot.trans hslot.symm) hvirtual rfl haccepts hsteps 2
  refine .of_eq happly (hup.congr fun _ v after _ _ => ?_)
  rw [hreturns]
  cases after.types.unboxOrCast valveOpen.returns v <;> rfl

/-- The dispatcher has the function of the script type answer that. -/
theorem HasPouring.comesTo_dispatchRouted {w w' : World} {t t' : HostType} (h : w.HasPouring t t')
    (haside : (w.withPourers t t').Aside w') (steps depth : Nat) :
    ComesTo w' ((exec steps depth).dispatchRouted .first ⟨1, t'.id⟩ 1 [])
      (exec steps depth (.function (valveFunction "open" "script opens") ⟨1⟩ []))
      fun types v => (types.toHost valveOpen.returns v).map .box := by
  have hw := h.withPourers
  obtain ⟨_, _, houter⟩ := hw.outer
  obtain ⟨op, hop, hslot⟩ := TypeTable.exists_operation (n := 1) (s := valveOpen.slot) hw.slots' rfl
  obtain ⟨g, hg, hmem⟩ := Option.bind_eq_some_iff.1 hop
  have hcapability : op.declaring ≠ capabilityName :=
    hw.declaring' g hg op (List.mem_of_getElem? hmem) (hslot ▸ by decide)
  obtain ⟨hname, hreturns, -⟩ := Slot.mk.inj hslot
  have hsubtype : w'.HasSubtype t _ _ t' :=
    houter.subtype.grown (haside.types ▸ List.suffix_rfl) (haside.types ▸ hw.sane.numbered)
  have hacts : Runner.operationAt ⟨1, t'.id⟩ 1 w' = (.ok op, w') :=
    (hsubtype.operationAt_eq_ok_iff (haside.types ▸ hw.nearest)).2 (haside.types ▸ hop)
  have hbound := h.bound.aside haside
  have htaker : valveScript.taker? op.name ([] : List Value).length = some (valveFunction "open" "script opens") :=
    hname ▸ rfl
  refine (Runner.comesTo_dispatchRouted_of_binds hacts hbound.idle hbound.binds
    (Runner.comesTo_route_of_taker hbound.instance hcapability htaker
      fun w'' _ => .refl (held_exec steps depth _ w''))).congr fun _ v after _ _ => ?_
  rw [hreturns]
  rfl

/-- The object of the second subtype runs the function of its script type, although the class has a body for what that
overrides. -/
theorem overridden_bypasses_differs : ∃ (w w₁ : World) (t t' : HostType),
    pouringWorld.createExtensionType .first valve.id [] [] .system = (.ok t.id, w₁) ∧
    w₁.createExtensionType .first t.id [pouring.id] [] .system = (.ok t'.id, w) ∧
    ((exec 30 6) (.method valveOpen ⟨1, t'.id⟩ []) (w.withPourers t t')).1 = .ok (.str "host opens") ∧
    ((exec 30 6).overriddenNamed ⟨1⟩ "open" [] (w.withPourers t t')).1 = .ok (.str "script opens") := by
  obtain ⟨w, w₁, t, t', h₁, h₂, h⟩ := exists_hasPouring
  refine ⟨w, w₁, t, t', h₁, h₂, rfl, ?_⟩
  have hcomes := h.comesTo_overriddenNamed.trans fun w' haside => h.comesTo_dispatchRouted haside 30 3
  refine hcomes.fst_eq_ok (v := .str "script opens") (fun w' haside => ?_) fun types => rfl
  have hi := (h.bound.aside haside).instance
  simp only [exec, World.holding, Action.finally_, Runner.runTask, valveFunction, Action.bind_apply,
    Action.get_apply, hi]
  rfl

end World

end Interpose
