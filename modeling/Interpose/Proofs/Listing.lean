import Interpose.Proofs.Granting

/-!
# The operations of a subtype

A subtype lists its operations in the order of their slots. They are told by what the types declare that were
there before it, although they are harvested from its bridge.
-/

namespace Interpose

variable {w w' : World} {base : HostType} {interfaces properties : List TypeId} {p : PlatformId}
  {parent : Loader} {proxy : TypeId}

/-- A subtype lists, in strict order, the slots of which there is a declaration among the base and its
interfaces, those asked for and the capability, that is not final, not static and public or protected, unless a
final declaration is there as well or the slot is that of an accessor of a property. -/
theorem World.mem_operations_iff (hs : w.Sane) (hp : p.index < w.platforms.size)
    (hdeclared : ∀ i ∈ base.id :: (interfaces ++ properties), i.index < w.types.length)
    (hbase : w.types.lookup? base.id = some base)
    (hsuper : base.isInterface = true → base.superclass = none)
    (h : w.createExtensionType p base.id interfaces properties parent = (.ok proxy, w')) :
    ∃ pairs operations, w.types.harvestProperties properties = .ok pairs ∧
      (w'.types.proxy? proxy).map (·.operations) = some operations ∧
      operations.Pairwise (fun a b => compare a.slot b.slot = .lt) ∧ (operations.map (·.slot)).Nodup ∧
      ∀ s, s ∈ operations.map (·.slot) ↔
        (∃ m, w.types.Declares base.id (interfaces ++ properties ++ [.capability]) m ∧ m.slot = s ∧
          m.modifiers.isFinal = false ∧ m.modifiers.isStatic = false ∧
          (m.modifiers.isPublic = true ∨ m.modifiers.isProtected = true) ∧
          ¬(m.name = teardownName ∧ m.params = [])) ∧
        (∀ m, w.types.Declares base.id (interfaces ++ properties ++ [.capability]) m → m.slot = s →
          m.modifiers.isFinal = false) ∧
        ∀ pair ∈ pairs, s ≠ pair.getter.slot ∧ s ≠ pair.setter.slot := by
  obtain ⟨hlater, -⟩ := later_createExtensionType (w := w) p parent fun _ => hdeclared
  rw [h] at hlater
  obtain ⟨e, older, w₀, interfaces', properties', pairs, b, t, rfl, ha⟩ :=
    answered_of_createExtensionType hs hp hdeclared hbase h
  obtain ⟨pairs', hpairs, hshapes⟩ := ha.harvestProperties hlater.types fun i hi =>
    (List.forall_mem_cons.1 hdeclared).2 i (List.mem_append_right _ hi)
  have hsorted := sorted_intercept (TypeTable.lineage w₀.types b.id ++ TypeTable.interfaceList w₀.types b.id
    (dedupIds interfaces' ++ [.capability]))
  refine ⟨pairs', _, hpairs, ha.stands.operations, hsorted, Gathering.Sorted.nodup_slots hsorted, fun s => ?_⟩
  have hclaimed : s ∉ (pairs.flatMap fun pair => [pair.getter.slot, pair.setter.slot]) ↔
      ∀ pair ∈ pairs', s ≠ pair.getter.slot ∧ s ≠ pair.setter.slot := by
    rw [← PropertyPair.slots_eq hshapes]
    simp
  rw [ha.mem_slots hlater.types hs.start hdeclared hsuper, hclaimed]
  simp only [Method.isOffered_iff]

/-- The subtype of the class with the property lists the operation of the class that is open, and not the name,
which is final and that of a property as well. -/
theorem World.mem_operations_iff_badge : ∃ proxy w' operations,
    badgeWorld.createExtensionType .first badge.id [] [named.id] .system = (.ok proxy, w') ∧
    (w'.types.proxy? proxy).map (·.operations) = some operations ∧
    badgeWear.slot ∈ operations.map (·.slot) ∧ badgeName.slot ∉ operations.map (·.slot) := by
  obtain ⟨proxy, w', h⟩ := exists_createExtensionType_badge
  obtain ⟨pairs, operations, hpairs, hoperations, -, -, hlisted⟩ :=
    mem_operations_iff sane_badgeWorld (by decide) (by decide) rfl (by decide) h
  have hdeclares {m : Method} (hm : m ∈ badge.methods) :
      badgeWorld.types.Declares badge.id ([] ++ [named.id] ++ [.capability]) m :=
    ⟨badge, .inl (TypeTable.mem_lineage rfl), hm⟩
  have hopen : ∀ t ∈ badgeWorld.types, ∀ m ∈ t.methods, m.slot = badgeWear.slot →
      m.modifiers.isFinal = false := by decide
  have hunclaimed : badgeWear.slot ∉ (badgeWorld.types.propertyMethods [named.id]).map (·.slot) := by decide
  rw [← (TypeTable.pairs_of_harvestProperties hpairs).mem_slots] at hunclaimed
  refine ⟨proxy, w', operations, h, hoperations, (hlisted _).2 ⟨?_, fun m ⟨t, ht, hm⟩ => ?_, ?_⟩, fun hname => ?_⟩
  · exact ⟨badgeWear, hdeclares (by simp [badge, gauge]), rfl, by decide⟩
  · exact hopen t ht.mem m hm
  · simpa using hunclaimed
  · have hfinal := ((hlisted _).1 hname).2.1 badgeName (hdeclares List.mem_cons_self) rfl
    exact absurd hfinal (by decide)

end Interpose
