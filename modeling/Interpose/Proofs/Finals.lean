import Interpose.Proofs.Granting
import Interpose.Proofs.Lookups

/-!
# Final operations below layers

A final operation of a base is what calls on a subtype reach, unless a layer has a method of its own of that slot:
the accessor of a property, or an accessor to what an operation overrides. Where the base has the operation
from an interface, the interfaces that the subtype names first may have another one.
-/

namespace Interpose

variable {e : Emitter} {w w' w₀ : World} {types older : TypeTable} {base b t : HostType}
  {interfaces properties interfaces' properties' : List TypeId} {pairs : List PropertyPair} {s : Slot}
  {m n : Method} {p : PlatformId} {parent : Loader} {proxy : TypeId}

/-! ## What a type reaches -/

namespace TypeTable

/-- What a call reaches is declared by the type or by one of its interfaces. -/
theorem Numbered.declares_of_findVirtual? (h : types.Numbered) {id : TypeId}
    (hm : types.findVirtual? id s = some m) : types.Declares id [] m := by
  have hmem := List.mem_of_find?_eq_some hm
  rw [methodsOf, h.allInterfaces_eq_extendFound, ← List.flatMap_append] at hmem
  obtain ⟨t, ht, hm⟩ := List.mem_flatMap.1 hmem
  refine ⟨t, ?_, hm⟩
  rw [List.mem_append, mem_extendFound_nil] at ht
  rwa [InScope, List.append_nil]

/-- What is above the layers on a base does not change when further types are added. -/
theorem Numbered.above_append {new : TypeTable} (h : Numbered (new ++ types)) (hstart : initial <:+ types)
    (hdeclared : ∀ i ∈ base.id :: (interfaces ++ properties), i.index < types.length) :
    findVirtual? (new ++ types) base.id s = types.findVirtual? base.id s ∧
    lineage (new ++ types) (Layer.bridgeSuperclass base) = types.lineage (Layer.bridgeSuperclass base) ∧
    reached? (new ++ types) base (dedupIds interfaces ++ [.capability] ++
        Layer.bridgeInterfaces base properties) s =
      types.reached? base (dedupIds interfaces ++ [.capability] ++ Layer.bridgeInterfaces base properties) s := by
  obtain ⟨hself, hdeclared⟩ := List.forall_mem_cons.1 hdeclared
  obtain ⟨hproperties, hasked⟩ := List.forall_mem_append.1 (index_lt_of_asked hstart hdeclared)
  have hbridge : ∀ i ∈ Layer.bridgeInterfaces base properties, i.index < types.length := by
    intro i hi
    rcases Layer.mem_bridgeInterfaces.1 hi with ⟨-, rfl⟩ | hi
    · exact hself
    · exact hproperties i hi
  refine ⟨?_, h.chain_append hstart hself,
    h.reached?_append hstart hself (List.forall_mem_append.2 ⟨hasked, hbridge⟩)⟩
  rw [findVirtual?, findVirtual?, h.methodsOf_append hself]

/-- What a base has from its class chain is what is reached above layers on it. -/
theorem Numbered.reached?_eq_of_mem (h : types.Numbered) (hstart : initial <:+ types) {named : List TypeId}
    (hm : types.findVirtual? base.id s = some m)
    (hchain : m ∈ (types.lineage (Layer.bridgeSuperclass base)).flatMap (·.methods)) :
    types.reached? base named s = some m := by
  refine reached?_of_chain ?_
  rw [Layer.bridgeSuperclass] at hchain ⊢
  split at hchain
  · obtain ⟨r, hroot, hnone, -⟩ := h.lineage_root hstart
    rw [hroot, List.flatMap_cons, hnone] at hchain
    cases hchain
  rename_i hclass
  rw [if_neg hclass]
  obtain ⟨k, -, hk, -⟩ := exists_find?_of_mem hchain (List.find?_some hm)
  rw [findVirtual?, methodsOf, List.find?_append, hk, Option.some_or] at hm
  rw [hk, hm]

end TypeTable

/-! ## What layers redefine -/

namespace World.Answered

variable (h : w'.Answered e older w₀ base interfaces properties interfaces' properties' pairs b t)

include h

/-- The slots of a proxy are those of its operations and of their accessors. -/
theorem slots_eq : t.methods.map (·.slot) = ((TypeTable.harvest (b :: older) b.id
    (dedupIds interfaces' ++ [.capability])).map (·.slot)).flatMap fun s => [s, s.accessor] := by
  obtain ⟨d, hd, hdefines⟩ := h.built.proxy
  obtain ⟨methods, ctors, hmethods, -, rfl⟩ := Layer.proxyDef_eq_ok_iff.1 hd
  rw [hdefines.slots_eq]
  exact Layer.slots_of_proxyMethods hmethods

/-- Layers have methods of their own for accessors of properties and of operations, and calls reach one of
them. -/
theorem exists_findVirtual? (hown : s ∈ (pairs.flatMap fun p => [p.getter.slot, p.setter.slot]) ∨
      ∃ op ∈ TypeTable.harvest (b :: older) b.id (dedupIds interfaces' ++ [.capability]), s = op.slot.accessor) :
    ∃ n ∈ t.methods ++ b.methods, n.slot = s ∧ w'.types.findVirtual? t.id s = some n := by
  obtain ⟨n, hn, hslot, hmodifiers⟩ : ∃ n ∈ t.methods ++ b.methods, n.slot = s ∧
      n.modifiers = Layer.ownModifiers := by
    rcases hown with hclaimed | ⟨op, hop, rfl⟩
    · obtain ⟨n, hn, hrest⟩ := h.built.exists_own hclaimed
      exact ⟨n, List.mem_append_right _ hn, hrest⟩
    · rw [← h.stands.types] at hop
      obtain ⟨i, hi⟩ := List.getElem?_of_mem hop
      obtain ⟨_, _, -, -, hupward⟩ := h.stands.proxy.upward hi
      exact ⟨_, List.mem_append_left _ (List.mem_of_getElem? hupward), rfl, rfl⟩
  have hvirtual : n.isVirtual = true := by
    rw [Method.isVirtual, hmodifiers]
    rfl
  obtain ⟨k, hmem, hk, hreached⟩ := exists_find?_of_mem (q := fun m => m.isVirtual && m.occupies s) hn
    (Method.and_occupies_iff.2 ⟨hvirtual, hslot⟩)
  refine ⟨k, hmem, (Method.and_occupies_iff.1 hreached).2, ?_⟩
  rw [h.stands.findVirtual?_eq fun i hi => h.declared i (List.mem_append_left _ hi), hk, Option.some_or]

/-- What no layer redefines is what is reached above them. -/
theorem findVirtual?_eq (hnone : ¬∃ n ∈ t.methods ++ b.methods, n.slot = s) :
    w'.types.findVirtual? t.id s = older.reached? base (dedupIds interfaces' ++ [.capability] ++
      Layer.bridgeInterfaces base properties') s := by
  have hfind : (t.methods ++ b.methods).find? (fun m => m.isVirtual && m.occupies s) = none := by
    refine List.find?_eq_none.2 fun n hn hreached => hnone ⟨n, hn, ?_⟩
    exact (Method.and_occupies_iff.1 hreached).2
  rw [h.stands.findVirtual?_eq fun i hi => h.declared i (List.mem_append_left _ hi), hfind, Option.none_or]

/-- The methods of the layers name types as theirs that are later than the base. -/
theorem declaringId_of_mem (hn : n ∈ t.methods ++ b.methods) : base.id.index < n.declaringId.index := by
  obtain ⟨new, -, -, hbase⟩ := h.stands.grown_base
  obtain ⟨d, -, hb⟩ := h.built.bridge
  obtain ⟨d', -, ht⟩ := h.built.proxy
  rcases List.mem_append.1 hn with hn | hn
  · obtain ⟨_, _, hmade⟩ := exists_of_forall₂ ht.methods hn
    obtain ⟨_, -, rfl⟩ := Emitter.method_eq_ok.1 hmade
    rw [ht.id]
    exact Nat.lt_succ_of_lt hbase
  · obtain ⟨_, _, hmade⟩ := exists_of_forall₂ hb.methods hn
    obtain ⟨_, -, rfl⟩ := Emitter.method_eq_ok.1 hmade
    rw [hb.id]
    exact hbase

/-- A layer redefines a slot that is final above the base only if it is that of an accessor. -/
theorem redefines_iff (hsuper : base.isInterface = true → base.superclass = none)
    (hm : older.findVirtual? base.id s = some m) (hfinal : m.modifiers.isFinal = true) :
    (∃ n ∈ t.methods ++ b.methods, n.slot = s) ↔
      s ∈ (pairs.flatMap fun p => [p.getter.slot, p.setter.slot]) ∨
      ∃ op ∈ TypeTable.harvest (b :: older) b.id (dedupIds interfaces' ++ [.capability]),
        s = op.slot.accessor := by
  constructor
  · rintro ⟨n, hn, hslot⟩
    obtain ⟨new, -, hnumbered, -⟩ := h.stands.grown_base
    have holder := hnumbered.of_append
    have hslotm := TypeTable.slot_of_findVirtual? hm
    have hdeclares {extra : List TypeId} : older.Declares base.id extra m :=
      (holder.declares_of_findVirtual? hm).mono fun i hi => absurd hi List.not_mem_nil
    rcases List.mem_append.1 hn with hn | hn
    · have hmem : s ∈ t.methods.map (·.slot) := List.mem_map.2 ⟨n, hn, hslot⟩
      rw [h.slots_eq] at hmem
      obtain ⟨k, hk, hs⟩ := List.mem_flatMap.1 hmem
      rcases List.mem_cons.1 hs with rfl | hs
      · -- what is taken over has no final declaration
        obtain ⟨hproperties, hextra⟩ :=
          List.forall_mem_append.1 (TypeTable.index_lt_of_asked h.stands.start h.declared)
        have hnumbered' := h.stands.bridge.numbered holder h.stands.start h.stands.base hproperties
        have hopen := ((h.built.mem_slots hnumbered' h.stands.start h.stands.base hsuper hextra).1 hk).2.1 m
          hdeclares hslotm
        rw [hfinal] at hopen
        cases hopen
      · obtain ⟨op, hop, rfl⟩ := List.mem_map.1 hk
        exact .inr ⟨op, hop, List.mem_singleton.1 hs⟩
    · rcases h.built.method_cases hn with ⟨-, hclaimed⟩ | ⟨op, hop, hopslot, -⟩
      · exact .inl (hslot ▸ hclaimed)
      · -- a stub stands for an operation without a final declaration
        have hopen := (mem_intercept.1 (List.mem_filter.1 hop).1).1 m (holder.mem_sources.2 hdeclares)
          (hslotm.trans (hslot.symm.trans hopslot))
        rw [hfinal] at hopen
        cases hopen
  · intro hown
    obtain ⟨n, hn, hslot, -⟩ := h.exists_findVirtual? hown
    exact ⟨n, hn, hslot⟩

/-- What was above the layers when they were built is above them when they are asked for. -/
theorem above_eq (hgrown : w.types <:+ w'.types) (hstart : TypeTable.initial <:+ w.types)
    (hdeclared : ∀ i ∈ base.id :: (interfaces ++ properties), i.index < w.types.length) :
    older.findVirtual? base.id s = w.types.findVirtual? base.id s ∧
    older.lineage (Layer.bridgeSuperclass base) = w.types.lineage (Layer.bridgeSuperclass base) ∧
    older.reached? base (dedupIds interfaces' ++ [.capability] ++ Layer.bridgeInterfaces base properties') s =
      w.types.reached? base (dedupIds interfaces' ++ [.capability] ++
        Layer.bridgeInterfaces base properties') s := by
  obtain ⟨new, hnew, hnumbered, hbase⟩ := h.stands.grown_base
  obtain ⟨grown, hgrown⟩ := hgrown
  have hnumbered' : TypeTable.Numbered (grown ++ w.types) := hgrown ▸ h.stands.numbered
  have hasked : ∀ i ∈ base.id :: (interfaces' ++ properties'), i.index < w.types.length := by
    intro i hi
    refine hdeclared i ?_
    simpa [h.interfaces, h.properties] using hi
  have hbefore := hnumbered.above_append (s := s) h.stands.start
    (List.forall_mem_cons.2 ⟨hbase, h.declared⟩)
  have hafter := hnumbered'.above_append (s := s) hstart hasked
  rw [← hnew] at hbefore
  rw [hgrown] at hafter
  exact ⟨hbefore.1.symm.trans hafter.1, hbefore.2.1.symm.trans hafter.2.1, hbefore.2.2.symm.trans hafter.2.2⟩

end World.Answered

/-- A call of a final operation of a base reaches, on a subtype, what is reached above its two layers, unless one
of them has a method of the slot; that is so exactly for accessors of properties and of operations. A final
operation of the class chain is what is reached above the layers. -/
theorem World.findVirtual?_of_final (hs : w.Sane) (hp : p.index < w.platforms.size)
    (hdeclared : ∀ i ∈ base.id :: (interfaces ++ properties), i.index < w.types.length)
    (hbase : w.types.lookup? base.id = some base)
    (hsuper : base.isInterface = true → base.superclass = none)
    (h : w.createExtensionType p base.id interfaces properties parent = (.ok proxy, w')) :
    ∃ pairs operations interfaces' properties' b t, w.types.harvestProperties properties = .ok pairs ∧
      (w'.types.proxy? proxy).map (·.operations) = some operations ∧
      (∀ i, i ∈ interfaces' ↔ i ∈ interfaces) ∧ (∀ i, i ∈ properties' ↔ i ∈ properties) ∧
      w'.types.lineage proxy = t :: b :: w.types.lineage (Layer.bridgeSuperclass base) ∧
      ∀ s m, w.types.findVirtual? base.id s = some m → m.modifiers.isFinal = true →
        ((∃ n ∈ t.methods ++ b.methods, n.slot = s) ↔
          (∃ pair ∈ pairs, s = pair.getter.slot ∨ s = pair.setter.slot) ∨
          ∃ op ∈ operations, s = op.slot.accessor) ∧
        ((∃ n ∈ t.methods ++ b.methods, n.slot = s) →
          ∃ n ∈ t.methods ++ b.methods, w'.types.findVirtual? proxy s = some n) ∧
        ((¬∃ n ∈ t.methods ++ b.methods, n.slot = s) →
          w'.types.findVirtual? proxy s = w.types.reached? base
            (dedupIds interfaces' ++ [.capability] ++ Layer.bridgeInterfaces base properties') s) ∧
        ((¬∃ n ∈ t.methods ++ b.methods, n.slot = s) →
          m ∈ (w.types.lineage (Layer.bridgeSuperclass base)).flatMap (·.methods) →
          w'.types.findVirtual? proxy s = some m) := by
  obtain ⟨hlater, -⟩ := later_createExtensionType (w := w) p parent fun _ => hdeclared
  rw [h] at hlater
  obtain ⟨e, older, w₀, interfaces', properties', pairs, b, t, rfl, ha⟩ :=
    answered_of_createExtensionType hs hp hdeclared hbase h
  obtain ⟨pairs', hpairs, hshapes⟩ := ha.harvestProperties hlater.types fun i hi =>
    (List.forall_mem_cons.1 hdeclared).2 i (List.mem_append_right _ hi)
  have hclaimed (s : Slot) : s ∈ (pairs.flatMap fun pair => [pair.getter.slot, pair.setter.slot]) ↔
      ∃ pair ∈ pairs', s = pair.getter.slot ∨ s = pair.setter.slot := by
    rw [← PropertyPair.slots_eq hshapes]
    simp
  have habove {s : Slot} := ha.above_eq hlater.types hs.start hdeclared (s := s)
  refine ⟨pairs', _, interfaces', properties', b, t, hpairs, ha.stands.operations, ha.interfaces, ha.properties,
    ?_, fun s m hm hfinal => ?_⟩
  · rw [ha.stands.lineage_layers, (habove (s := default)).2.1]
  have hreached (hnone : ¬∃ n ∈ t.methods ++ b.methods, n.slot = s) := (ha.findVirtual?_eq hnone).trans
    habove.2.2
  have hiff := ha.redefines_iff hsuper (habove.1.trans hm) hfinal
  rw [ha.stands.types, ← hclaimed]
  refine ⟨hiff, fun hown => ?_, hreached, fun hnone hchain => ?_⟩
  · obtain ⟨n, hn, -, hfound⟩ := ha.exists_findVirtual? (hiff.1 hown)
    exact ⟨n, hn, hfound⟩
  · rw [hreached hnone]
    exact hs.numbered.reached?_eq_of_mem hs.start hm hchain

/-- The final operation that is no property is reached on the subtype of the class with the property. -/
theorem World.findVirtual?_of_final_badge : ∃ proxy w',
    badgeWorld.createExtensionType .first badge.id [] [named.id] .system = (.ok proxy, w') ∧
    w'.types.findVirtual? proxy badgeSeal.slot = some badgeSeal := by
  obtain ⟨proxy, w', h⟩ := exists_createExtensionType_badge
  obtain ⟨pairs, operations, _, _, b, t, hpairs, -, -, -, -, hfinal⟩ :=
    findVirtual?_of_final sane_badgeWorld (by decide) (by decide) rfl (by decide) h
  obtain ⟨hiff, -, -, hreached⟩ := hfinal badgeSeal.slot badgeSeal rfl (by decide)
  have hchain : badgeSeal ∈ (badgeWorld.types.lineage (Layer.bridgeSuperclass badge)).flatMap (·.methods) :=
    List.mem_flatMap.2 ⟨badge, TypeTable.mem_lineage rfl, by simp [badge, gauge]⟩
  have hunclaimed : badgeSeal.slot ∉ (badgeWorld.types.propertyMethods [named.id]).map (·.slot) := by decide
  rw [← (TypeTable.pairs_of_harvestProperties hpairs).mem_slots] at hunclaimed
  refine ⟨proxy, w', h, hreached (fun hown => ?_) hchain⟩
  rcases hiff.1 hown with hpair | ⟨op, -, haccessor⟩
  · exact hunclaimed (by simpa using hpair)
  · have hmark := op.slot.prefix_accessor
    rw [← haccessor] at hmark
    exact absurd hmark (by decide)

/-- The final name is not reached on that subtype, but the accessor of the property. -/
theorem World.findVirtual?_of_final_differs : ∃ proxy w',
    badgeWorld.createExtensionType .first badge.id [] [named.id] .system = (.ok proxy, w') ∧
    badgeWorld.types.findVirtual? badge.id badgeName.slot = some badgeName ∧
    badgeName.modifiers.isFinal = true ∧
    w'.types.findVirtual? proxy badgeName.slot ≠ some badgeName := by
  obtain ⟨proxy, w', h⟩ := exists_createExtensionType_badge
  have hdeclared : ∀ i ∈ badge.id :: ([] ++ [named.id]), i.index < badgeWorld.types.length := by decide
  obtain ⟨hlater, -⟩ := later_createExtensionType (w := badgeWorld) .first .system fun _ => hdeclared
  rw [h] at hlater
  obtain ⟨e, older, w₀, _, _, pairs, b, t, rfl, ha⟩ :=
    answered_of_createExtensionType sane_badgeWorld (by decide) hdeclared rfl h
  obtain ⟨pairs', hpairs, hshapes⟩ := ha.harvestProperties hlater.types (by decide)
  have hclaimed : badgeName.slot ∈ (badgeWorld.types.propertyMethods [named.id]).map (·.slot) := by decide
  rw [← (TypeTable.pairs_of_harvestProperties hpairs).mem_slots, PropertyPair.slots_eq hshapes] at hclaimed
  obtain ⟨n, hn, -, hfound⟩ := ha.exists_findVirtual? (.inl hclaimed)
  refine ⟨t.id, w', h, rfl, by decide, fun hsame => ?_⟩
  rw [hsame] at hfound
  cases hfound
  exact absurd (ha.declaringId_of_mem hn) (by decide)

end Interpose
