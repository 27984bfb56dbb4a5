import Interpose.Proofs.Granting

/-!
# Interfaces that stand for properties

An accessor is an operation whose name is a verb and the name of a property, and whose signature fits the verb.
Interfaces stand for properties exactly if they declare nothing else, if no two accessors of one property and role
differ in their slot, and if each property is read and written as one type. They then stand for one property per
name, in the order of the names, and each declared slot belongs to exactly one of them.
-/

namespace Interpose

variable {m : Method} {name : String} {role : AccessorRole} {types : TypeTable} {ids ids' : List TypeId}
  {pairs : List PropertyPair} {p : PropertyPair}

/-- Whether an operation reads or writes a property: its name is the verb and something more, which is the name of the
property but for the case of its first letter, and its signature is that of the verb. -/
inductive Method.Accesses (m : Method) : AccessorRole → String → Prop where
  | get (rest : String) (hname : m.name = "get" ++ rest) (hrest : rest ≠ "") (hparams : m.params = [])
      (hreturns : m.returns ≠ .void) : m.Accesses .getter (Text.lowerFirst rest)
  | is (rest : String) (hname : m.name = "is" ++ rest) (hrest : rest ≠ "") (hparams : m.params = [])
      (hreturns : m.returns = .primitive .boolean ∨ m.returns = .reference Kind.boolean.boxName) :
      m.Accesses .getter (Text.lowerFirst rest)
  | set (rest : String) (hname : m.name = "set" ++ rest) (hrest : rest ≠ "") (hparams : ∃ t, m.params = [t])
      (hreturns : m.returns = .void) : m.Accesses .setter (Text.lowerFirst rest)

namespace Property

theorem nameAfter?_eq_some_iff {verb accessor : String} : nameAfter? verb accessor = some name ↔
    ∃ rest, accessor = verb ++ rest ∧ rest ≠ "" ∧ name = Text.lowerFirst rest := by
  have hsplit : verb.toList <+: accessor.toList ↔
      accessor = verb ++ String.ofList (accessor.toList.drop verb.length) := by
    rw [← String.toList_inj, String.toList_append, String.toList_ofList, List.prefix_iff_eq_append,
      String.length_toList, eq_comm]
  rw [nameAfter?]
  simp only [Option.ite_none_right_eq_some, Bool.and_eq_true, List.isPrefixOf_iff_prefix, Bool.not_eq_true',
    List.isEmpty_eq_false_iff, Option.some.injEq]
  constructor
  · rintro ⟨⟨hstarts, hrest⟩, rfl⟩
    exact ⟨_, hsplit.1 hstarts, fun hempty => hrest (by simpa using congrArg String.toList hempty), rfl⟩
  · rintro ⟨rest, rfl, hrest, rfl⟩
    have hdrop : (verb ++ rest).toList.drop verb.length = rest.toList := by
      rw [String.toList_append, ← String.length_toList, List.drop_left]
    rw [hdrop, String.ofList_toList]
    exact ⟨⟨String.toList_append ▸ List.prefix_append _ _, mt String.toList_eq_nil_iff.1 hrest⟩, rfl⟩

/-- A name begins with one verb at most. -/
theorem nameAfter?_is (rest : String) : nameAfter? "get" ("is" ++ rest) = none := by
  simp [nameAfter?, List.isPrefixOf]

theorem nameAfter?_set (rest : String) :
    nameAfter? "get" ("set" ++ rest) = none ∧ nameAfter? "is" ("set" ++ rest) = none := by
  simp [nameAfter?, List.isPrefixOf]

theorem isTruthType_iff {t : ValueType} :
    isTruthType t = true ↔ t = .primitive .boolean ∨ t = .reference Kind.boolean.boxName := by
  rw [isTruthType.eq_def]
  split
  · simp
  · simp
  · rename_i hprimitive hreference
    simp only [Bool.false_eq_true, false_iff, not_or]
    exact ⟨hprimitive, hreference _⟩

theorem isVoid_iff {t : ValueType} : t.isVoid = true ↔ t = .void := by
  cases t <;> simp [ValueType.isVoid]

/-- An operation is taken for an accessor exactly if it reads or writes a property. -/
theorem classify_eq_ok_iff : classify m = .ok (role, name) ↔ m.Accesses role name := by
  constructor
  · intro h
    rw [classify] at h
    dsimp only at h
    split at h
    · rename_i property hget
      obtain ⟨rest, hname, hrest, rfl⟩ := nameAfter?_eq_some_iff.1 hget
      split at h
      · cases h
      rename_i hparams
      split at h
      · cases h
      rename_i hreturns
      cases h
      exact .get rest hname hrest (by simpa using hparams) (mt isVoid_iff.2 hreturns)
    split at h
    · rename_i property his
      obtain ⟨rest, hname, hrest, rfl⟩ := nameAfter?_eq_some_iff.1 his
      split at h
      · cases h
      rename_i hparams
      split at h
      · cases h
      rename_i hreturns
      cases h
      exact .is rest hname hrest (by simpa using hparams) (isTruthType_iff.1 (by simpa using hreturns))
    split at h
    · rename_i property hset
      obtain ⟨rest, hname, hrest, rfl⟩ := nameAfter?_eq_some_iff.1 hset
      split at h
      · cases h
      rename_i hparams
      split at h
      · cases h
      rename_i hreturns
      cases h
      exact .set rest hname hrest (List.length_eq_one_iff.1 (by simpa using hparams))
        (isVoid_iff.1 (by simpa using hreturns))
    · cases h
  · rintro (⟨rest, hname, hrest, hparams, hreturns⟩ | ⟨rest, hname, hrest, hparams, hreturns⟩ |
      ⟨rest, hname, hrest, ⟨t, hparams⟩, hreturns⟩)
    · have hget : nameAfter? "get" m.name = some (Text.lowerFirst rest) :=
        nameAfter?_eq_some_iff.2 ⟨rest, hname, hrest, rfl⟩
      simp [classify, hget, hparams, mt isVoid_iff.1 hreturns]
    · have his : nameAfter? "is" m.name = some (Text.lowerFirst rest) :=
        nameAfter?_eq_some_iff.2 ⟨rest, hname, hrest, rfl⟩
      have hget : nameAfter? "get" m.name = none := hname ▸ nameAfter?_is rest
      simp [classify, hget, his, hparams, isTruthType_iff.2 hreturns]
    · have hset : nameAfter? "set" m.name = some (Text.lowerFirst rest) :=
        nameAfter?_eq_some_iff.2 ⟨rest, hname, hrest, rfl⟩
      obtain ⟨hget, his⟩ := nameAfter?_set rest
      rw [← hname] at hget his
      simp [classify, hget, his, hset, hparams, isVoid_iff.2 hreturns]

end Property

namespace Property.Pairs

variable {methods : List Method}

/-- Each declared slot belongs to one pair. -/
theorem existsUnique_pair (h : Pairs methods pairs) (hm : m ∈ methods) :
    ∃! p, p ∈ pairs ∧ (m.slot = p.getter.slot ∨ m.slot = p.setter.slot) := by
  obtain ⟨p, hp, hslot⟩ := h.complete m hm
  refine ⟨p, ⟨hp, hslot⟩, fun q ⟨hq, hqslot⟩ => ?_⟩
  have hname {p : PropertyPair} (hp : p ∈ pairs) (hslot : m.slot = p.getter.slot ∨ m.slot = p.setter.slot) :
      ∃ role, classify m = .ok (role, p.name) := by
    rcases hslot with hslot | hslot
    · exact ⟨_, classify_of_slot hslot.symm (h.getter p hp).2.1⟩
    · exact ⟨_, classify_of_slot hslot.symm (h.setter p hp).2.1⟩
  obtain ⟨role, hrole⟩ := hname hp hslot
  obtain ⟨role', hrole'⟩ := hname hq hqslot
  exact h.eq_of_name hq hp (Prod.mk.inj (Except.ok.inj (hrole'.symm.trans hrole))).2

/-- The names of pairs are those of the properties that are read or written. -/
theorem exists_name_iff (h : Pairs methods pairs) :
    (∃ p ∈ pairs, p.name = name) ↔ ∃ m ∈ methods, ∃ role, m.Accesses role name := by
  constructor
  · rintro ⟨p, hp, rfl⟩
    obtain ⟨hgetter, hrole, -⟩ := h.getter p hp
    exact ⟨p.getter, hgetter, .getter, classify_eq_ok_iff.1 hrole⟩
  · rintro ⟨m, hm, role, hrole⟩
    have hclassify := classify_eq_ok_iff.2 hrole
    obtain ⟨p, hp, ⟨hrole', -⟩ | ⟨hrole', -⟩⟩ := h.classify_eq ⟨m, hm, rfl⟩
    all_goals exact ⟨p, hp, (Prod.mk.inj (Except.ok.inj (hclassify.symm.trans hrole'))).2.symm⟩

end Property.Pairs

namespace TypeTable

/-- Interfaces stand for properties exactly if what they declare can be paired. -/
theorem exists_harvestProperties_iff : (∃ pairs, types.harvestProperties ids = .ok pairs) ↔
    Property.Pairable (types.propertyMethods ids) :=
  ⟨fun ⟨_, h⟩ => (pairs_of_harvestProperties h).pairable, fun h => h.exists_pair⟩

/-- Neither whether interfaces stand for properties nor for which depends on their order or on repetitions. -/
theorem shapes_harvestProperties_congr (hsame : ∀ i, i ∈ ids' ↔ i ∈ ids) :
    (types.harvestProperties ids').toOption.map (·.map (·.shape)) =
      (types.harvestProperties ids).toOption.map (·.map (·.shape)) := by
  cases h : types.harvestProperties ids with
  | ok pairs =>
      obtain ⟨pairs', h', hshapes⟩ := harvestProperties_congr (fun i => (hsame i).symm) h
      rw [h']
      exact congrArg some hshapes
  | error e =>
      cases h' : types.harvestProperties ids' with
      | ok pairs' =>
          obtain ⟨pairs, hpairs, -⟩ := harvestProperties_congr hsame h'
          cases h.symm.trans hpairs
      | error e' => rfl

/-- **Properties.** Interfaces stand for properties exactly if each operation with a receiver that they declare reads
or writes one, those that read one property have one slot, as have those that write it, each property that is read is
written and conversely, and it is written as what it is read. Then there is one pair for each property, in strict
order of the names, of accessors that are declared, and each declared slot belongs to exactly one pair. Neither
whether there are pairs nor which they are changes when interfaces are given in another order or repeatedly. -/
theorem harvestProperties_exact (types : TypeTable) (ids : List TypeId) :
    ((∃ pairs, types.harvestProperties ids = .ok pairs) ↔
      (∀ m ∈ types.propertyMethods ids, ∃ role name, m.Accesses role name) ∧
      (∀ m ∈ types.propertyMethods ids, ∀ n ∈ types.propertyMethods ids, ∀ role name,
        m.Accesses role name → n.Accesses role name → m.slot = n.slot) ∧
      (∀ m ∈ types.propertyMethods ids, ∀ name, m.Accesses .getter name →
        ∃ n ∈ types.propertyMethods ids, n.Accesses .setter name) ∧
      (∀ m ∈ types.propertyMethods ids, ∀ name, m.Accesses .setter name →
        ∃ n ∈ types.propertyMethods ids, n.Accesses .getter name) ∧
      ∀ m ∈ types.propertyMethods ids, ∀ n ∈ types.propertyMethods ids, ∀ name,
        m.Accesses .getter name → n.Accesses .setter name → n.params = [m.returns]) ∧
    (∀ pairs, types.harvestProperties ids = .ok pairs →
      pairs.Pairwise (fun p q => p.name < q.name) ∧
      (∀ name, (∃ p ∈ pairs, p.name = name) ↔
        ∃ m ∈ types.propertyMethods ids, ∃ role, m.Accesses role name) ∧
      (∀ p ∈ pairs, p.getter ∈ types.propertyMethods ids ∧ p.getter.Accesses .getter p.name ∧
        p.getter.returns = p.type ∧ p.setter ∈ types.propertyMethods ids ∧
        p.setter.Accesses .setter p.name ∧ p.setter.params = [p.type]) ∧
      ∀ m ∈ types.propertyMethods ids,
        ∃! p, p ∈ pairs ∧ (m.slot = p.getter.slot ∨ m.slot = p.setter.slot)) ∧
    ∀ ids', (∀ i, i ∈ ids' ↔ i ∈ ids) →
      (types.harvestProperties ids').toOption.map (·.map (·.shape)) =
        (types.harvestProperties ids).toOption.map (·.map (·.shape)) := by
  refine ⟨?_, fun pairs hpairs => ?_, fun ids' => shapes_harvestProperties_congr⟩
  · rw [exists_harvestProperties_iff]
    simp only [← Property.classify_eq_ok_iff]
    exact ⟨fun h => ⟨h.classified, h.unique, h.written, h.read, h.agree⟩,
      fun ⟨hclassified, hunique, hwritten, hread, hagree⟩ => ⟨hclassified, hunique, hwritten, hread, hagree⟩⟩
  · have h := pairs_of_harvestProperties hpairs
    refine ⟨h.sorted, fun name => h.exists_name_iff, fun p hp => ?_, fun m hm => h.existsUnique_pair hm⟩
    obtain ⟨hgetter, hread, htype⟩ := h.getter p hp
    obtain ⟨hsetter, hwritten, hparams⟩ := h.setter p hp
    exact ⟨hgetter, Property.classify_eq_ok_iff.1 hread, htype, hsetter, Property.classify_eq_ok_iff.1 hwritten,
      hparams⟩

/-- An interface that is asked for twice stands for the property that it stands for alone. -/
theorem harvestProperties_exact_named : ∃ pairs, badgeWorld.types.harvestProperties [named.id] = .ok pairs ∧
    (∀ i, i ∈ [named.id, named.id] ↔ i ∈ [named.id]) ∧
    (badgeWorld.types.harvestProperties [named.id, named.id]).toOption.map (·.map (·.shape)) =
      some (pairs.map (·.shape)) ∧
    ∃ p ∈ pairs, p.name = "name" ∧ p.setter.params = [p.type] := by
  obtain ⟨pairs, hpairs⟩ := exists_pairs_named
  have hsame (i : TypeId) : i ∈ [named.id, named.id] ↔ i ∈ [named.id] := by
    simp only [List.mem_cons, List.not_mem_nil, or_false, or_self]
  obtain ⟨-, hfound, horder⟩ := harvestProperties_exact badgeWorld.types [named.id]
  obtain ⟨-, hnames, haccessors, -⟩ := hfound pairs hpairs
  obtain ⟨p, hp, hname⟩ := (hnames "name").2 ⟨_, mem_propertyMethods.2
    ⟨named.id, List.mem_singleton_self _, named, rfl, List.mem_cons_self, rfl⟩, .getter,
    .get "Name" rfl (by decide) rfl nofun⟩
  refine ⟨pairs, hpairs, hsame, ?_, p, hp, hname, (haccessors p hp).2.2.2.2.2⟩
  rw [horder [named.id, named.id] hsame, hpairs]
  rfl

end TypeTable

end Interpose
