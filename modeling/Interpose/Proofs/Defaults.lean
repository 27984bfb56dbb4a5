import Interpose.Proofs.Bypassing
import Interpose.Proofs.Finals
import Interpose.Proofs.Growth

/-!
# Bodies that operations go up to

The table of a subtype is gathered from its base and from all interfaces that it was asked for. The body that an
operation goes up to is looked for above the bridge, and the bridge extends the base and the interfaces with properties
only. So a body that the class chain of the base has is run, and so is one of an interface of the base with which none
of the properties interferes. A body that only a requested interface has is never run: going up raises that nothing
implements the operation.
-/

namespace Interpose

open Interpose.Action (ComesTo)

/-- A search that finds an item of the beginning of a list finds it there. -/
theorem find?_eq_of_isPrefix {α : Type} {q : α → Bool} {l l' : List α} {a : α} (hl : l <+: l')
    (ha : l'.find? q = some a) (hmem : a ∈ l) : l.find? q = some a := by
  obtain ⟨k, -, hk, -⟩ := exists_find?_of_mem hmem (List.find?_some ha)
  rw [hk, ← ha, hl.find?_eq_some hk]

/-! ## What is found first -/

namespace TypeTable

/-- What a slot is first found to be on a base, and then on further interfaces. -/
def default? (types : TypeTable) (base : TypeId) (extra : List TypeId) (s : Slot) : Option Method :=
  ((types.lineage base ++ types.interfaceList base extra).flatMap (·.methods)).find? fun m =>
    m.isVirtual && m.occupies s

/-- Whether layers on a base with properties hand an operation down: subtypes see it, and it is in the class chain, or
it comes from the interfaces of a base that is an interface or has no properties beside it; or nothing else is declared
for its slot that calls can reach. -/
def HandsDown (types : TypeTable) (base : HostType) (properties : List TypeId) (m : Method) : Prop :=
  (m.modifiers.isPublic || m.modifiers.isProtected) = true ∧
      (m ∈ (types.lineage base.id).flatMap (·.methods) ∨
        types.Declares base.id [] m ∧ (base.isInterface = true ∨ properties = [])) ∨
    types.Declares base.id properties m ∧
      ∀ m', types.Declares base.id properties m' → m'.slot = m.slot → m'.isVirtual = true → m' = m

variable {new types : TypeTable} {base : HostType} {id : TypeId} {properties extra : List TypeId} {m : Method}
  {s : Slot}

/-- What is looked at with some interfaces comes first when there are more of them. -/
theorem isPrefix_sources (types : TypeTable) (id : TypeId) (properties extra : List TypeId) :
    (types.lineage id ++ types.interfaceList id properties).flatMap (·.methods) <+:
      (types.lineage id ++ types.interfaceList id (properties ++ extra)).flatMap (·.methods) := by
  obtain ⟨rest, hrest, -⟩ := extendFound_eq_append types extra (types.interfaceList id properties)
  have hall : types.interfaceList id (properties ++ extra) = types.interfaceList id properties ++ rest := by
    rw [← hrest, interfaceList, extendFound_append_stack, interfaceList]
  refine ⟨rest.flatMap (·.methods), ?_⟩
  rw [hall, ← List.append_assoc, ← List.flatMap_append]

/-- What is found first among more interfaces is found first among those that declare it. -/
theorem Numbered.default?_of_declares (h : types.Numbered) (hm : types.default? id (properties ++ extra) s = some m)
    (hdeclared : types.Declares id properties m) : types.default? id properties s = some m :=
  find?_eq_of_isPrefix (isPrefix_sources types id properties extra) hm (h.mem_sources.2 hdeclared)

/-- If it is not among those, none of them has an operation of the slot that calls can reach. -/
theorem Numbered.not_reached_of_default? (h : types.Numbered)
    (hm : types.default? id (properties ++ extra) s = some m) (hother : ¬types.Declares id properties m) {n : Method}
    (hn : types.Declares id properties n) : ¬(n.isVirtual && n.occupies s) = true := by
  intro hfound
  obtain ⟨k, hkmem, hk, -⟩ := exists_find?_of_mem (q := fun m => m.isVirtual && m.occupies s) (h.mem_sources.2 hn) hfound
  have hfirst := (isPrefix_sources types id properties extra).find?_eq_some hk
  rw [default?, hfirst] at hm
  exact hother (Option.some.inj hm ▸ h.mem_sources.1 hkmem)

/-- What the base or its interfaces declare is found first on the base, whatever further interfaces there are. -/
theorem Numbered.findVirtual?_of_default? (h : types.Numbered) (hm : types.default? id extra s = some m)
    (hdeclared : types.Declares id [] m) : types.findVirtual? id s = some m := by
  have hnil : types.default? id ([] ++ extra) s = some m := hm
  have hfirst := h.default?_of_declares hnil hdeclared
  rw [default?, interfaceList, extendFound, List.flatMap_append] at hfirst
  exact hfirst

/-- What calls on the base reach is found first. -/
theorem default?_of_findVirtual? (hm : types.findVirtual? id s = some m) (extra : List TypeId) :
    types.default? id extra s = some m := by
  refine List.IsPrefix.find?_eq_some (isPrefix_sources types id [] extra) ?_
  rw [interfaceList, extendFound, List.flatMap_append]
  exact hm

/-- Only what is declared is found. -/
theorem Numbered.declares_of_default? (h : types.Numbered) (hm : types.default? id extra s = some m) :
    types.Declares id extra m :=
  h.mem_sources.1 (List.mem_of_find?_eq_some hm)

/-- Layers hand the same down whatever the order of the properties. -/
theorem HandsDown.congr {properties' : List TypeId} (h : types.HandsDown base properties m)
    (hsame : ∀ i, i ∈ properties' ↔ i ∈ properties) : types.HandsDown base properties' m := by
  have hdeclares (n : Method) : types.Declares base.id properties' n ↔ types.Declares base.id properties n :=
    declares_congr hsame
  have hnone (heq : properties = []) : properties' = [] := by
    rw [List.eq_nil_iff_forall_not_mem]
    intro i hi
    rw [hsame, heq] at hi
    cases hi
  rcases h with ⟨hvisible, hdirect⟩ | ⟨hdeclared, hunique⟩
  · exact .inl ⟨hvisible, hdirect.imp_right fun ⟨hdeclared, hfree⟩ => ⟨hdeclared, hfree.imp_right hnone⟩⟩
  · exact .inr ⟨(hdeclares m).2 hdeclared, fun n hn => hunique n ((hdeclares n).1 hn)⟩

/-! ## Where the way up ends for it -/

/-- What is found first stands for no stub if it has a body and may be taken over. -/
theorem not_abstract_of_default? (hm : types.default? id properties s = some m) (hoffered : m.isOffered = true)
    (hconcrete : m.isAbstract = false) :
    ¬∃ a ∈ types.harvestAbstract id properties, (a.isVirtual && a.occupies s) = true := by
  intro hstub
  obtain ⟨-, a, ha, hvirtual, habstract⟩ := exists_harvestAbstract_iff.1 hstub
  have hfirst := List.find?_some hm
  have haccepted := List.find?_some ha
  have hsame : m = a := find?_eq_of_find? hm ha
    (Method.and_occupies_iff.2 ⟨hoffered, (Method.and_occupies_iff.1 hfirst).2⟩)
    (Method.and_occupies_iff.2 ⟨hvirtual, (Method.and_occupies_iff.1 haccepted).2⟩)
  rw [hsame, habstract] at hconcrete
  cases hconcrete

/-- How the way up ends is told by the types that were there before. -/
theorem Numbered.ending_append (h : Numbered (new ++ types)) (hstart : initial <:+ types)
    (hdeclared : ∀ i ∈ base.id :: properties, i.index < types.length) :
    ending (new ++ types) base properties s = types.ending base properties s := by
  obtain ⟨hid, hproperties⟩ := List.forall_mem_cons.1 hdeclared
  have hnamed : ∀ i ∈ Layer.bridgeInterfaces base properties, i.index < types.length := by
    intro i hi
    rcases Layer.mem_bridgeInterfaces.1 hi with ⟨-, rfl⟩ | hi
    · exact hid
    · exact hproperties i hi
  rw [ending, ending, h.harvestAbstract_append hid hproperties, h.reached?_append hstart hid hnamed]

/-- The way up ends with what is reached above the bridge if there is no stub and that has a body. -/
theorem ending_eq_body (hnone : ¬∃ a ∈ types.harvestAbstract base.id properties, (a.isVirtual && a.occupies s) = true)
    (hreached : types.reached? base (Layer.bridgeInterfaces base properties) s = some m)
    (hconcrete : m.isAbstract = false) : types.ending base properties s = .body m := by
  rw [← List.any_eq_true] at hnone
  rw [ending, if_neg hnone, hreached, Option.filter_some, hconcrete]
  rfl

section

variable (h : types.Numbered) (hstart : initial <:+ types) (hbase : types.lookup? base.id = some base)
  (hsuper : base.isInterface = true → base.superclass = none)

include h hstart hbase hsuper

/-- What a base has is reached above its bridge first, if the base is an interface or has no properties beside it. -/
theorem Numbered.reached?_of_base (hm : types.findVirtual? base.id s = some m)
    (hdirect : base.isInterface = true ∨ properties = []) :
    types.reached? base (Layer.bridgeInterfaces base properties) s = some m := by
  have hgrown : Numbered ([] ++ types) := h
  by_cases hinterface : base.isInterface = true
  · obtain ⟨r, hroot, hnone, hrootInterfaces⟩ := h.lineage_root hstart
    obtain ⟨hlineage, hcollect⟩ := h.collect_eq hbase (hsuper hinterface)
    -- the search starts with the base and what it extends
    have hsearch : types.extendFound (base.id :: properties) [] =
        types.extendFound properties (base :: types.allInterfaces base.id) := by
      rw [← hcollect]
      exact hgrown.extendFound_collect (h.index_lt (mem_of_lookup? hbase).1) _ _
    obtain ⟨rest, hrest, -⟩ := extendFound_eq_append types properties (base :: types.allInterfaces base.id)
    rw [reached?, Layer.bridgeSuperclass, Layer.bridgeInterfaces, if_pos hinterface, if_pos hinterface, hroot]
    simp only [List.flatMap_cons, List.flatMap_nil, hrootInterfaces, List.append_nil, List.singleton_append, hnone,
      List.nil_append]
    rw [findVirtual?, methodsOf, hlineage, ← List.flatMap_append] at hm
    rw [hsearch, hrest, List.flatMap_append, List.find?_append]
    exact hm ▸ Option.some_or
  · rw [hdirect.resolve_left hinterface, reached?, Layer.bridgeSuperclass, Layer.bridgeInterfaces,
      if_neg hinterface, if_neg hinterface, List.nil_append, ← h.allInterfaces_eq_extendFound,
      List.flatMap_append]
    exact hm

/-- The only declaration of a slot that calls can reach is reached above the bridge. -/
theorem Numbered.reached?_of_unique (hm : types.Declares base.id properties m) (hvirtual : m.isVirtual = true)
    (hunique : ∀ m', types.Declares base.id properties m' → m'.slot = m.slot → m'.isVirtual = true → m' = m) :
    types.reached? base (Layer.bridgeInterfaces base properties) m.slot = some m := by
  have habove : types.Above base (Layer.bridgeInterfaces base properties ++ []) m :=
    (h.above_iff hstart hbase hsuper).2 (by rwa [List.append_nil])
  rw [List.append_nil] at habove
  obtain ⟨k, hkmem, hk, hfound⟩ := exists_find?_of_mem (q := fun n => n.isVirtual && n.occupies m.slot)
    (mem_reached_sources.2 habove) (Method.and_occupies_iff.2 ⟨hvirtual, rfl⟩)
  obtain ⟨hkvirtual, hslot⟩ := Method.and_occupies_iff.1 hfound
  rw [reached?, hk, hunique k (h.declares_of_mem_reached hstart hbase hkmem) hslot hkvirtual]

/-- The way up ends with the body that is found first if the base hands that down. -/
theorem Numbered.ending_of_handsDown (hm : types.default? base.id extra s = some m) (hconcrete : m.isAbstract = false)
    (hoffered : (m.modifiers.isPublic || m.modifiers.isProtected) = true → m.isOffered = true)
    (hhands : types.HandsDown base properties m) : types.ending base properties s = .body m := by
  have hfirst := List.find?_some hm
  obtain ⟨hvirtual, rfl⟩ := Method.and_occupies_iff.1 hfirst
  rcases hhands with ⟨hvisible, hdirect⟩ | ⟨hdeclared, hunique⟩
  · have hdeclared : types.Declares base.id [] m := by
      rcases hdirect with hchain | ⟨hdeclared, -⟩
      · obtain ⟨t, ht, hmem⟩ := List.mem_flatMap.1 hchain
        exact ⟨t, .inl ht, hmem⟩
      · exact hdeclared
    have hfound := h.findVirtual?_of_default? hm hdeclared
    refine ending_eq_body ?_ ?_ hconcrete
    · exact not_abstract_of_default? (default?_of_findVirtual? hfound properties) (hoffered hvisible) hconcrete
    by_cases hinterface : base.isInterface = true
    · exact h.reached?_of_base hstart hbase hsuper hfound (.inl hinterface)
    rcases hdirect with hchain | ⟨-, hnone⟩
    · refine h.reached?_eq_of_mem hstart hfound ?_
      rwa [Layer.bridgeSuperclass, if_neg hinterface]
    · exact h.reached?_of_base hstart hbase hsuper hfound hnone
  · refine ending_eq_body ?_ (h.reached?_of_unique hstart hbase hsuper hdeclared hvirtual hunique) hconcrete
    intro hstub
    obtain ⟨-, a, ha, havirtual, habstract⟩ := exists_harvestAbstract_iff.1 hstub
    have haccepted := List.find?_some ha
    rw [hunique a (h.mem_sources.1 (List.mem_of_find?_eq_some ha)) (Method.and_occupies_iff.1 haccepted).2 havirtual,
      hconcrete] at habstract
    cases habstract

omit hsuper

/-- The way up ends nowhere if neither the base nor an interface with properties has an operation of the slot that calls
can reach. -/
theorem Numbered.ending_eq_nowhere
    (hnone : ∀ n, types.Declares base.id properties n → ¬(n.isVirtual && n.occupies s) = true) :
    types.ending base properties s = .nowhere := by
  have hstub : ¬(types.harvestAbstract base.id properties).any (fun a => a.isVirtual && a.occupies s) = true := by
    intro hstub
    obtain ⟨a, ha, hfound⟩ := List.any_eq_true.1 hstub
    have hsource := List.mem_of_find?_eq_some (mem_intercept.1 (List.mem_filter.1 ha).1).2
    exact hnone a (h.mem_sources.1 hsource) hfound
  have hreached : types.reached? base (Layer.bridgeInterfaces base properties) s = none := by
    rw [reached?, List.find?_eq_none]
    exact fun n hn => hnone n (h.declares_of_mem_reached hstart hbase hn)
  rw [ending, if_neg hstub, hreached]
  rfl

end

end TypeTable

/-! ## Operations that go up -/

namespace World

/-- Whether a method of a subtype goes up for the operation of a number: it is the accessor of the operation, or the
thunk if there is no dispatcher. -/
def GoesUp (w : World) (t : HostType) (n : Nat) (m : Method) : Prop :=
  t.methods[2 * n + 1]? = some m ∨ t.methods[2 * n]? = some m ∧ w.dispatcherOf? t.id = none

variable {e : Emitter} {older : TypeTable} {w w' w'' w₀ : World} {base b t : HostType}
  {interfaces properties interfaces' properties' : List TypeId} {pairs : List PropertyPair} {n : Nat}
  {op m route : Method} {s : Slot} {p : PlatformId} {parent : Loader} {proxy : TypeId}

/-- What goes up for an operation comes to its host side. -/
theorem Stands.comesTo_goesUp {this : ObjectRef} {args : List Value} {steps : Nat}
    (h : w.Stands e older w₀ base interfaces properties b t)
    (hop : (w₀.types.harvest b.id (dedupIds interfaces ++ [.capability]))[n]? = some op) (hup : w.GoesUp t n route)
    (hbelow : t ∈ w.types.lineage this.cls) (hargs : args.length = op.params.length)
    (hsteps : 6 * op.params.length + 16 ≤ steps) (depth : Nat) :
    ComesTo w (exec steps (depth + 1) (.method route this args))
      (Layer.hostSide (exec steps depth) op this args (Layer.superTarget? w₀.types b.id op))
      fun _ v => .ok (if op.returns.isVoid then .void else v) := by
  rcases hup with hown | ⟨hthunk, hnone⟩
  · exact h.proxy.comesTo_accessor hop hown hbelow hargs (by omega) depth
  · exact h.proxy.comesTo_thunk_of_none hop hthunk h.lookup hnone hbelow hargs hsteps depth

namespace Answered

variable (h : w'.Answered e older w₀ base interfaces properties interfaces' properties' pairs b t)
  (hgrown : w.types <:+ w'.types) (hstart : TypeTable.initial <:+ w.types)
  (hdeclared : ∀ i ∈ base.id :: (interfaces ++ properties), i.index < w.types.length)

include h hgrown hstart hdeclared

/-- How the way up ends was told by the types that were there when the subtype was asked for. -/
theorem ending_eq : older.ending base properties' s = w.types.ending base properties' s := by
  obtain ⟨new, hnew, hnumbered, hlt⟩ := h.stands.grown_base
  obtain ⟨grown, hgrown⟩ := hgrown
  have hnumbered' : TypeTable.Numbered (grown ++ w.types) := hgrown ▸ h.stands.numbered
  have holder : ∀ i ∈ base.id :: properties', i.index < older.length :=
    List.forall_mem_cons.2 ⟨hlt, fun i hi => h.declared i (List.mem_append_right _ hi)⟩
  have hasked : ∀ i ∈ base.id :: properties', i.index < w.types.length := by
    intro i hi
    apply hdeclared i
    simp only [List.mem_cons, List.mem_append, ← h.properties] at hi ⊢
    tauto
  rw [← hnumbered.ending_append h.stands.start holder, ← hnew, ← hgrown, hnumbered'.ending_append hstart hasked]

/-- What a subtype may go up to may be taken over if subtypes see it. -/
theorem isOffered_of_default? (hsuper : base.isInterface = true → base.superclass = none)
    (hop : op ∈ w₀.types.harvest b.id (dedupIds interfaces' ++ [.capability]))
    (hm : w.types.default? base.id (properties ++ interfaces) op.slot = some m)
    (hvisible : (m.modifiers.isPublic || m.modifiers.isProtected) = true) : m.isOffered = true := by
  have hnumbered : w.types.Numbered := by
    obtain ⟨grown, hgrown⟩ := hgrown
    exact TypeTable.Numbered.of_append (hgrown ▸ h.stands.numbered)
  have hfound := List.find?_some hm
  obtain ⟨hvirtual, hslot⟩ := Method.and_occupies_iff.1 hfound
  have hopen := ((h.mem_slots hgrown hstart hdeclared hsuper).1 (List.mem_map_of_mem hop)).2.1
  have hdeclares : w.types.Declares base.id (interfaces ++ properties ++ [.capability]) m := by
    refine (hnumbered.declares_of_default? hm).mono fun i hi => ?_
    simp only [List.mem_append] at hi ⊢
    tauto
  exact Method.isOffered_of_slot (Emitter.Bridge.offered_of_mem_harvest hop).1 hslot hvirtual (hopen m hdeclares hslot) hvisible

/-- What goes up for an operation comes to what is run where the way up ends, then and while types are added. -/
theorem exists_goesUp {o : ObjectRef} {args : List Value} {steps : Nat}
    (hop : (w₀.types.harvest b.id (dedupIds interfaces' ++ [.capability]))[n]? = some op)
    (hargs : args.length = op.params.length) (hsteps : 6 * op.params.length + 16 ≤ steps) (depth : Nat) :
    ∃ y, (w.types.ending base properties' op.slot).Runs (exec steps (depth + 1)) op o args y ∧
      ∀ w'' route, w'.types <:+ w''.types → w''.types.Numbered → t ∈ w''.types.lineage o.cls → w''.GoesUp t n route →
        ComesTo w'' (exec steps (depth + 2) (.method route o args)) y
          fun _ v => .ok (if op.returns.isVoid then .void else v) := by
  have hsmall : op.params.length + 3 ≤ steps := by omega
  obtain ⟨y, hy, hcomes⟩ := h.stands.exists_runs h.built hop hargs hsmall depth
  rw [h.ending_eq hgrown hstart hdeclared] at hy
  refine ⟨y, hy, ?_⟩
  intro w'' route hlater hnumbered hbelow hup
  have hstands := h.stands.later hlater hnumbered
  exact (hstands.comesTo_goesUp hop hup hbelow hargs hsteps (depth + 1)).trans fun after haside =>
    hcomes after (hstands.aside haside) (haside.types ▸ hbelow)

end Answered

/-- **Going up to what is found first.** For every operation of a subtype in a sane world, the accessor and, without a
dispatcher, the thunk come to what is run where the way up of the operation ends, then and while types are added. If
what the slot is first found to be on the base, the interfaces with properties and those asked for has a body, that body
is run if the base hands it down. It is not, but going up raises that nothing implements the operation, if neither the
base nor an interface with properties declares it. -/
theorem goes_up_to_default (hs : w.Sane) (hp : p.index < w.platforms.size)
    (hdeclared : ∀ i ∈ base.id :: (interfaces ++ properties), i.index < w.types.length)
    (hbase : w.types.lookup? base.id = some base)
    (hsuper : base.isInterface = true → base.superclass = none)
    (h : w.createExtensionType p base.id interfaces properties parent = (.ok proxy, w')) :
    ∃ operations properties' t, (w'.types.proxy? proxy).map (·.operations) = some operations ∧
      (∀ i, i ∈ properties' ↔ i ∈ properties) ∧ w'.types.lookup? proxy = some t ∧
      ∀ n op, operations[n]? = some op →
        (∃ thunk own, t.methods[2 * n]? = some thunk ∧ t.methods[2 * n + 1]? = some own) ∧
        (∀ m, w.types.default? base.id (properties ++ interfaces) op.slot = some m → m.isAbstract = false →
          (w.types.HandsDown base properties m → w.types.ending base properties' op.slot = .body m) ∧
          (¬w.types.Declares base.id properties m → w.types.ending base properties' op.slot = .nowhere)) ∧
        ∀ {o : ObjectRef} {args : List Value} {steps : Nat} (depth : Nat), args.length = op.params.length →
          6 * op.params.length + 16 ≤ steps →
          ∃ y, (w.types.ending base properties' op.slot).Runs (exec steps (depth + 1)) op o args y ∧
            ∀ w'' route, w'.types <:+ w''.types → w''.types.Numbered → t ∈ w''.types.lineage o.cls →
              w''.GoesUp t n route → ComesTo w'' (exec steps (depth + 2) (.method route o args)) y
                fun _ v => .ok (if op.returns.isVoid then .void else v) := by
  obtain ⟨hlater, -⟩ := later_createExtensionType (w := w) p parent fun _ => hdeclared
  rw [h] at hlater
  obtain ⟨e, older, w₀, interfaces', properties', pairs, b, t, rfl, ha⟩ :=
    answered_of_createExtensionType hs hp hdeclared hbase h
  have hnumbered := hs.numbered
  refine ⟨_, properties', t, ha.stands.operations, ha.properties, ha.stands.lookup, fun n op hop => ?_⟩
  have hmem := List.mem_of_getElem? hop
  refine ⟨?_, fun m hm hconcrete => ⟨fun hhands => ?_, fun hother => ?_⟩, fun {o args steps} depth hargs hsteps => ?_⟩
  · obtain ⟨_, _, -, -, hthunk⟩ := ha.stands.proxy.dispatching hop
    obtain ⟨_, _, -, -, hown⟩ := ha.stands.proxy.upward hop
    exact ⟨_, _, hthunk, hown⟩
  · exact hnumbered.ending_of_handsDown hs.start hbase hsuper hm hconcrete
      (ha.isOffered_of_default? hlater.types hs.start hdeclared hsuper hmem hm) (hhands.congr ha.properties)
  · refine hnumbered.ending_eq_nowhere hs.start hbase fun k hk => ?_
    exact hnumbered.not_reached_of_default? hm hother ((TypeTable.declares_congr ha.properties).1 hk)
  · exact ha.exists_goesUp hlater.types hs.start hdeclared hop hargs hsteps depth

end World

/-! ## A class and an interface that it does not know -/

/-- An operation that a class has a body for. -/
def lampTurn : Method :=
  ⟨"turn", [], .reference stringName, .public, "Gauge", ⟨2⟩, .native fun _ _ => .done (.str "host turns")⟩

/-- A class that has it and a constructor. -/
def lamp : HostType :=
  { gauge [lampTurn] with constructors := [⟨[], .public, "Gauge", .inherited none⟩] }

/-- An operation that an interface has a body for. -/
def glow : Method :=
  ⟨"glow", [], .reference stringName, .public, "Glowing", ⟨3⟩, .native fun _ _ => .done (.str "host glows")⟩

/-- The interface. -/
def glowing : HostType :=
  ⟨⟨3⟩, "Glowing", .iface, .public ||| .abstract, none, [], [glow], [], [], .system, none⟩

/-- The world with the class and the interface. -/
def lampWorld : World :=
  { World.initial {} with types := glowing :: lamp :: TypeTable.initial }

theorem sane_lampWorld : lampWorld.Sane := by
  refine World.sane_of_types _ ⟨rfl, nofun, nofun, ?_⟩ ⟨[glowing, lamp], rfl⟩
  exact numbered_gauge [lampTurn]

/-- The class can be extended with the interface, and the subtype lists the operations of both. -/
theorem exists_answered_lamp : ∃ w' e older w₀ interfaces properties pairs b t,
    lampWorld.createExtensionType .first lamp.id [glowing.id] [] .system = (.ok t.id, w') ∧
    lampWorld.types <:+ w'.types ∧
    w'.Answered e older w₀ lamp [glowing.id] [] interfaces properties pairs b t ∧
    ∀ m ∈ [lampTurn, glow], ∃ (n : Nat) (op : Method), op.slot = m.slot ∧
      (w₀.types.harvest b.id (dedupIds interfaces ++ [.capability]))[n]? = some op := by
  have hdeclared : ∀ i ∈ lamp.id :: ([glowing.id] ++ []), i.index < lampWorld.types.length := by decide
  have hmodest : lampWorld.types.Modest lamp ([glowing.id] ++ []) :=
    TypeTable.modest_of_forall (by decide) (by decide)
  obtain ⟨proxy, w', h⟩ : ∃ proxy w',
      lampWorld.createExtensionType .first lamp.id [glowing.id] [] .system = (.ok proxy, w') := by
    refine World.exists_createExtensionType_of_fits .system sane_lampWorld nofun (by decide) rfl
      (hmodest.fits_asked sane_lampWorld.numbered sane_lampWorld.start) ?_ rfl (.inr ⟨by decide, by decide⟩)
    intro i hi t ht
    obtain rfl := List.mem_singleton.1 hi
    cases ht
    rfl
  obtain ⟨hlater, -⟩ := World.later_createExtensionType (w := lampWorld) .first .system fun _ => hdeclared
  rw [h] at hlater
  obtain ⟨e, older, w₀, interfaces, properties, pairs, b, t, rfl, ha⟩ :=
    World.answered_of_createExtensionType sane_lampWorld (by decide) hdeclared rfl h
  refine ⟨w', e, older, w₀, interfaces, properties, pairs, b, t, h, hlater.types, ha, ?_⟩
  intro m hm
  have hlisted : m.slot ∈ (w₀.types.harvest b.id (dedupIds interfaces ++ [.capability])).map (·.slot) := by
    obtain ⟨pairs', hpairs, hshapes⟩ := ha.harvestProperties hlater.types nofun
    have hopen : ∀ u ∈ lampWorld.types, ∀ k ∈ u.methods, k.modifiers.isFinal = false := by decide
    apply (ha.mem_slots hlater.types sane_lampWorld.start hdeclared (by decide)).2
    refine ⟨⟨m, ?_, rfl, ?_⟩, fun k ⟨u, hu, hk⟩ _ => hopen u hu.mem k hk, ?_⟩
    · simp only [List.mem_cons, List.not_mem_nil, or_false] at hm
      rcases hm with rfl | rfl
      · exact ⟨lamp, .inl (TypeTable.mem_lineage rfl), List.mem_cons_self⟩
      · have hglowing : lampWorld.types.lookup? glowing.id = some glowing := rfl
        exact ⟨glowing, .inr (.named (by decide) hglowing), List.mem_cons_self⟩
    · simp only [List.mem_cons, List.not_mem_nil, or_false] at hm
      rcases hm with rfl | rfl <;> rfl
    · cases hpairs
      rw [← PropertyPair.slots_eq hshapes]
      exact List.not_mem_nil
  obtain ⟨op, hop, hslot⟩ := List.mem_map.1 hlisted
  obtain ⟨n, hn⟩ := List.getElem?_of_mem hop
  exact ⟨n, op, hslot, hn⟩

namespace World

/-- The accessor of the operation of the class runs what the class has. -/
theorem goes_up_to_default_lamp : ∃ proxy w' t n op own,
    lampWorld.createExtensionType .first lamp.id [glowing.id] [] .system = (.ok proxy, w') ∧
    w'.types.lookup? proxy = some t ∧ (w'.types.proxy? proxy).bind (·.operations[n]?) = some op ∧
    op.slot = lampTurn.slot ∧ t.methods[2 * n + 1]? = some own ∧
    (exec 16 2 (.method own ⟨0, proxy⟩ []) w').1 = .ok (.str "host turns") := by
  obtain ⟨w', e, older, w₀, interfaces, properties, pairs, b, t, h, hgrown, ha, hlisted⟩ := exists_answered_lamp
  obtain ⟨n, op, hslot, hop⟩ := hlisted lampTurn List.mem_cons_self
  obtain ⟨operations, properties', t', hoperations, -, hlookup, hups⟩ :=
    goes_up_to_default sane_lampWorld (by decide) (by decide) rfl (by decide) h
  cases ha.stands.operations.symm.trans hoperations
  cases ha.stands.lookup.symm.trans hlookup
  obtain ⟨⟨thunk, own, -, hown⟩, hends, hruns⟩ := hups n op hop
  obtain ⟨-, hreturns, hparams⟩ := Slot.mk.inj hslot
  -- the class has the operation itself
  have hhands : lampWorld.types.HandsDown lamp [] lampTurn :=
    .inl ⟨by decide, .inl (List.mem_flatMap.2 ⟨lamp, TypeTable.mem_lineage rfl, List.mem_cons_self⟩)⟩
  have hdefault : lampWorld.types.default? lamp.id ([] ++ [glowing.id]) op.slot = some lampTurn := by
    rw [hslot]
    exact TypeTable.default?_of_findVirtual? rfl _
  obtain ⟨hbody, -⟩ := hends lampTurn hdefault (by decide)
  have hargs : ([] : List Value).length = op.params.length := by
    rw [hparams]
    rfl
  have hsteps : 6 * op.params.length + 16 ≤ 16 := by
    rw [hparams]
    decide
  obtain ⟨y, hy, hcomes⟩ := hruns (o := ⟨0, t.id⟩) 0 hargs hsteps
  rw [hbody hhands] at hy
  subst hy
  refine ⟨t.id, w', t, n, op, own, h, ha.stands.lookup, ?_, hslot, hown, ?_⟩
  · rw [ha.stands.proxy.proxy?_eq ha.stands.lookup]
    exact hop
  · refine (hcomes w' own List.suffix_rfl ha.stands.numbered (TypeTable.mem_lineage ha.stands.lookup)
      (.inl hown)).fst_eq_ok (v := .str "host turns") (fun w'' _ => rfl) fun types => ?_
    rw [hreturns]
    rfl

/-- The interface has a body for its operation, which is found first, and going up for it raises an error. -/
theorem goes_up_to_default_differs : ∃ proxy w' t n op own thunk,
    lampWorld.createExtensionType .first lamp.id [glowing.id] [] .system = (.ok proxy, w') ∧
    w'.types.lookup? proxy = some t ∧ (w'.types.proxy? proxy).bind (·.operations[n]?) = some op ∧
    lampWorld.types.default? lamp.id [glowing.id] op.slot = some glow ∧ glow.isAbstract = false ∧
    t.methods[2 * n]? = some thunk ∧ t.methods[2 * n + 1]? = some own ∧
    (exec 16 1 (.method glow ⟨0, proxy⟩ []) w').1 = .ok (.str "host glows") ∧
    (exec 16 2 (.method own ⟨0, proxy⟩ []) w').1 = .error (.raised (.unsupported op.text)) ∧
    (exec 16 2 (.method thunk ⟨0, proxy⟩ []) { w' with installed := [] }).1 =
      .error (.raised (.unsupported op.text)) := by
  obtain ⟨w', e, older, w₀, interfaces, properties, pairs, b, t, h, hgrown, ha, hlisted⟩ := exists_answered_lamp
  obtain ⟨n, op, hslot, hop⟩ := hlisted glow (by simp)
  obtain ⟨_, _, -, -, hthunk⟩ := ha.stands.proxy.dispatching hop
  obtain ⟨_, _, -, -, hown⟩ := ha.stands.proxy.upward hop
  obtain ⟨-, -, hparams⟩ := Slot.mk.inj hslot
  have hdeclared : ∀ i ∈ lamp.id :: ([glowing.id] ++ []), i.index < lampWorld.types.length := by decide
  -- the class chain of the class declares the other operation only
  have hending : lampWorld.types.ending lamp properties op.slot = .nowhere := by
    refine sane_lampWorld.numbered.ending_eq_nowhere sane_lampWorld.start rfl fun m hm hfound => ?_
    have hdeclared := sane_lampWorld.numbered.mem_sources.2 ((TypeTable.declares_congr ha.properties).1 hm)
    rw [TypeTable.interfaceList, TypeTable.extendFound] at hdeclared
    obtain rfl : m = lampTurn := List.mem_singleton.1 hdeclared
    rw [hslot] at hfound
    exact absurd hfound (by decide)
  have hargs : ([] : List Value).length = op.params.length := by
    rw [hparams]
    rfl
  have hsteps : 6 * op.params.length + 16 ≤ 16 := by
    rw [hparams]
    decide
  obtain ⟨y, hy, hcomes⟩ := ha.exists_goesUp (o := ⟨0, t.id⟩) hgrown sane_lampWorld.start hdeclared hop hargs hsteps 0
  rw [hending] at hy
  subst hy
  have hbelow := TypeTable.mem_lineage ha.stands.lookup
  have hraised {w'' : World} {route : Method} (htypes : w''.types = w'.types) (hup : w''.GoesUp t n route) :
      (exec 16 2 (.method route ⟨0, t.id⟩ []) w'').1 = .error (.raised (.unsupported op.text)) :=
    (hcomes w'' route (htypes ▸ List.suffix_rfl) (htypes ▸ ha.stands.numbered) (htypes ▸ hbelow) hup).fst_eq_error
      fun _ _ => rfl
  refine ⟨t.id, w', t, n, op, _, _, h, ha.stands.lookup, ?_, ?_, rfl, hthunk, hown, rfl, ?_, ?_⟩
  · rw [ha.stands.proxy.proxy?_eq ha.stands.lookup]
    exact hop
  · rw [hslot, TypeTable.default?, TypeTable.interfaceList, TypeTable.extendFound_cons (t := glowing) rfl rfl]
    simp only [glowing, List.append_nil, TypeTable.extendFound]
    rfl
  · exact hraised rfl (.inl hown)
  · exact hraised rfl (.inr ⟨hthunk, rfl⟩)

end World

end Interpose
