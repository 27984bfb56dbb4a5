import Interpose.Proofs.Bridges

/-!
# Which interfaces are found

The interfaces of a class chain and those asked for are found by one search in depth, whether they are
walked down the table or with a stack. It finds the types that the named ones are or extend, each once. So
what a layer takes over is looked for among the types that can be reached.
-/

namespace Interpose.TypeTable

variable {new types : TypeTable} {ids stack : List TypeId} {found : List HostType} {base id : TypeId}
  {extra : List TypeId} {s t : HostType}

/-- Whether a type is one of those named, or is extended by one that is reached from them. -/
inductive Reaches (types : TypeTable) (ids : List TypeId) : HostType → Prop
  | named {i : TypeId} {t : HostType} (hi : i ∈ ids) (ht : types.lookup? i = some t) : Reaches types ids t
  | extended {s t : HostType} {i : TypeId} (hs : Reaches types ids s) (hi : i ∈ s.interfaces)
      (ht : types.lookup? i = some t) : Reaches types ids t

namespace Reaches

theorem mem (h : types.Reaches ids t) : t ∈ types := by
  cases h with
  | named _ ht => exact (mem_of_lookup? ht).1
  | extended _ _ ht => exact (mem_of_lookup? ht).1

/-- What is reached from types that are reached is reached. -/
theorem trans {ids' : List TypeId} (h : types.Reaches ids t)
    (hids : ∀ i ∈ ids, ∀ s, types.lookup? i = some s → types.Reaches ids' s) : types.Reaches ids' t := by
  induction h with
  | named hi ht => exact hids _ hi _ ht
  | extended _ hi ht ih => exact .extended ih hi ht

theorem mono {ids' : List TypeId} (h : types.Reaches ids t) (hids : ∀ i ∈ ids, i ∈ ids') :
    types.Reaches ids' t :=
  h.trans fun i hi _ hs => .named (hids i hi) hs

/-- What a type names is reached if the type is. -/
theorem of_interfaces {ids' : List TypeId} (h : types.Reaches s.interfaces t)
    (hs : types.Reaches ids' s) : types.Reaches ids' t :=
  h.trans fun _ hi _ ht => .extended hs hi ht

end Reaches

theorem reaches_congr {ids' : List TypeId} (hids : ∀ i, i ∈ ids ↔ i ∈ ids') :
    types.Reaches ids t ↔ types.Reaches ids' t :=
  ⟨fun h => h.mono fun i => (hids i).1, fun h => h.mono fun i => (hids i).2⟩

theorem not_reaches_nil : ¬types.Reaches [] t := by
  intro h
  induction h with
  | named hi => cases hi
  | extended _ _ _ ih => exact ih

theorem reaches_append {ids' : List TypeId} :
    types.Reaches (ids ++ ids') t ↔ types.Reaches ids t ∨ types.Reaches ids' t := by
  constructor
  · intro h
    induction h with
    | named hi ht => exact (List.mem_append.1 hi).imp (.named · ht) (.named · ht)
    | extended _ hi ht ih => exact ih.imp (.extended · hi ht) (.extended · hi ht)
  · rintro (h | h)
    · exact h.mono fun i => List.mem_append_left _
    · exact h.mono fun i => List.mem_append_right _

/-- From a type one reaches itself and what is reached from the types that it names. -/
theorem reaches_singleton (hs : types.lookup? id = some s) :
    types.Reaches [id] t ↔ t = s ∨ types.Reaches s.interfaces t := by
  constructor
  · intro h
    induction h with
    | named hi ht =>
        rw [List.mem_singleton.1 hi, hs] at ht
        exact .inl (Option.some.inj ht).symm
    | extended _ hi ht ih =>
        rcases ih with rfl | ih
        · exact .inr (.named hi ht)
        · exact .inr (.extended ih hi ht)
  · have hself : types.Reaches [id] s := .named List.mem_cons_self hs
    rintro (rfl | h)
    · exact hself
    · exact h.of_interfaces hself

/-- A table says the same about what is reached when it grows. -/
theorem Numbered.reaches_append (h : Numbered (new ++ types)) (hids : ∀ i ∈ ids, i.index < types.length) :
    Reaches (new ++ types) ids t ↔ types.Reaches ids t := by
  constructor
  · intro hreaches
    induction hreaches with
    | named hi ht => exact .named hi (h.lookup?_append (hids _ hi) ▸ ht)
    | extended _ hi ht ih =>
        have hlt := (h.of_append.names_lt ih.mem).2 _ hi
        exact .extended ih hi (h.lookup?_append hlt ▸ ht)
  · intro hreaches
    induction hreaches with
    | named hi ht => exact .named hi ((h.lookup?_append (hids _ hi)).trans ht)
    | extended hs hi ht ih =>
        have hlt := (h.of_append.names_lt hs.mem).2 _ hi
        exact .extended ih hi ((h.lookup?_append hlt).trans ht)

/-! ## Walks -/

/-- Adds some types to those found, one after the other and each with what it extends behind it. -/
def walk (types : TypeTable) (ids : List TypeId) (found : List HostType) : List HostType :=
  ids.foldl (fun found i => types.collect i found) found

@[simp] theorem walk_nil (types : TypeTable) (found : List HostType) : types.walk [] found = found := rfl

@[simp] theorem walk_cons (types : TypeTable) (id : TypeId) (ids : List TypeId) (found : List HostType) :
    types.walk (id :: ids) found = types.walk ids (types.collect id found) := rfl

theorem walk_append (types : TypeTable) (ids ids' : List TypeId) (found : List HostType) :
    types.walk (ids ++ ids') found = types.walk ids' (types.walk ids found) :=
  List.foldl_append

/-- The interfaces of a type are those of its class chain, walked through from the start. -/
theorem allInterfaces_eq_walk (types : TypeTable) (id : TypeId) :
    types.allInterfaces id = types.walk ((types.lineage id).flatMap (·.interfaces)) [] :=
  List.foldl_flatMap.symm

/-- A table says the same about a walk when it grows. -/
theorem Numbered.walk_grown (h : Numbered (new ++ types)) (hids : ∀ i ∈ ids, i.index < types.length)
    (found : List HostType) : walk (new ++ types) ids found = types.walk ids found :=
  List.foldl_ext _ _ _ fun found i hi => collect_append (fun _ => h.ne_of_mem (hids i hi)) found

theorem collect_of_lookup?_none (hnone : types.lookup? id = none) (found : List HostType) :
    types.collect id found = found := by
  induction types with
  | nil => rfl
  | cons s older ih =>
      rw [lookup?, List.find?_cons] at hnone
      split at hnone
      · cases hnone
      · rename_i hs
        rw [collect, if_neg (beq_eq_false_iff_ne.1 hs)]
        exact ih hnone

/-- A type is passed over if it was found, and otherwise added before a walk through what it extends. -/
theorem Numbered.collect_of_lookup? (h : types.Numbered) (ht : types.lookup? id = some t)
    (found : List HostType) : types.collect id found =
      if found.any (·.id == id) then found else types.walk t.interfaces (found ++ [t]) := by
  -- down the table to the type, as what it extends is found in the older part too
  induction types with
  | nil => cases ht
  | cons s older ih =>
      have hcons : Numbered ([s] ++ older) := h
      have hgrown (ids : List TypeId) (hids : ∀ i ∈ ids, i.index < older.length) (found : List HostType) :
          walk (s :: older) ids found = walk older ids found := hcons.walk_grown hids found
      rw [lookup?, List.find?_cons] at ht
      by_cases hs : s.id = id
      · rw [beq_iff_eq.2 hs] at ht
        obtain rfl : s = t := Option.some.inj ht
        rw [collect, if_pos hs, hgrown _ h.2.2.1]
        rfl
      · rw [beq_eq_false_iff_ne.2 hs] at ht
        rw [collect, if_neg hs, ih h.2.2.2 ht, hgrown _ (h.2.2.2.names_lt (mem_of_lookup? ht).1).2]

/-! ## One search -/

/-- A type that was found is passed over. -/
theorem extendFound_cons_of_found (h : types.lookup? id = some t)
    (hold : found.any (·.id == t.id) = true) :
    types.extendFound (id :: stack) found = types.extendFound stack found := by
  rw [extendFound]
  split
  · rfl
  · rename_i s hs
    cases hs.symm.trans h
    rw [dif_pos hold]

/-- A search with a stack finds what a walk through the stack finds, in the same order. -/
theorem Numbered.extendFound_eq_walk (h : types.Numbered) (stack : List TypeId) (found : List HostType) :
    types.extendFound stack found = types.walk stack found := by
  fun_induction extendFound types stack found with
  | case1 found => rfl
  | case2 found id stack hnone ih => rw [walk_cons, collect_of_lookup?_none hnone, ih]
  | case3 found id stack t ht hold ih =>
      rw [(mem_of_lookup? ht).2] at hold
      rw [walk_cons, h.collect_of_lookup? ht, if_pos hold, ih]
  | case4 found id stack t ht hnew ih =>
      rw [(mem_of_lookup? ht).2] at hnew
      rw [walk_cons, h.collect_of_lookup? ht, if_neg hnew, ih, walk_append]

/-- Walking down the table from a type finds what the search with a stack finds from it. -/
theorem Numbered.extendFound_collect (h : Numbered (new ++ types)) (hid : id.index < types.length)
    (stack : List TypeId) (found : List HostType) :
    extendFound (new ++ types) (id :: stack) found =
      extendFound (new ++ types) stack (collect types id found) := by
  rw [h.extendFound_eq_walk, h.extendFound_eq_walk, walk_cons, collect_append fun _ => h.ne_of_mem hid]

/-- The interfaces of a class chain and those asked for are found by one search. -/
theorem Numbered.interfaceList_eq (h : types.Numbered) (base : TypeId) (extra : List TypeId) :
    types.interfaceList base extra =
      types.extendFound ((types.lineage base).flatMap (·.interfaces) ++ extra) [] := by
  rw [interfaceList, h.extendFound_eq_walk, h.extendFound_eq_walk, walk_append, allInterfaces_eq_walk]

/-- What a search keeps: it found types under their own numbers, and each type that one of them extends was
found or waits. -/
structure Searching (types : TypeTable) (stack : List TypeId) (found : List HostType) : Prop where
  lookup : ∀ s ∈ found, types.lookup? s.id = some s
  awaited : ∀ s ∈ found, ∀ i ∈ s.interfaces, ∀ t, types.lookup? i = some t → i ∈ stack ∨ t ∈ found

namespace Searching

/-- A type that waits no more is found, or there is none of its number. -/
theorem drop (h : types.Searching (id :: stack) found)
    (hid : ∀ t, types.lookup? id = some t → t ∈ found) : types.Searching stack found where
  lookup := h.lookup
  awaited s hs i hi t ht := by
    rcases h.awaited s hs i hi t ht with hwaits | hfound
    · rcases List.mem_cons.1 hwaits with rfl | hwaits
      · exact .inr (hid t ht)
      · exact .inl hwaits
    · exact .inr hfound

/-- A type that is found makes those wait that it extends. -/
theorem add (h : types.Searching (id :: stack) found) (ht : types.lookup? id = some t) :
    types.Searching (t.interfaces ++ stack) (found ++ [t]) where
  lookup s hs := by
    rcases List.mem_append.1 hs with hs | hs
    · exact h.lookup s hs
    · rw [List.mem_singleton.1 hs, (mem_of_lookup? ht).2, ht]
  awaited s hs i hi u hu := by
    rcases List.mem_append.1 hs with hs | hs
    · rcases h.awaited s hs i hi u hu with hwaits | hfound
      · rcases List.mem_cons.1 hwaits with rfl | hwaits
        · exact .inr (List.mem_append_right _ (by rw [ht] at hu; cases hu; exact List.mem_cons_self))
        · exact .inl (List.mem_append_right _ hwaits)
      · exact .inr (List.mem_append_left _ hfound)
    · rw [List.mem_singleton.1 hs] at hi
      exact .inl (List.mem_append_left _ hi)

/-- A search ends with what waited and what that extends. -/
theorem closed (h : types.Searching stack found) :
    types.Searching [] (types.extendFound stack found) ∧
      ∀ i ∈ stack, ∀ t, types.lookup? i = some t → t ∈ types.extendFound stack found := by
  fun_induction extendFound types stack found with
  | case1 found => exact ⟨h, fun i hi => by cases hi⟩
  | case2 found id stack hnone ih =>
      have hid (t : HostType) (ht : types.lookup? id = some t) : t ∈ found := by
        rw [hnone] at ht
        cases ht
      refine (ih (h.drop hid)).imp_right fun hall => List.forall_mem_cons.2 ⟨fun t ht => ?_, hall⟩
      exact mem_extendFound (hid t ht)
  | case3 found id stack u hu hseen ih =>
      have hid (t : HostType) (ht : types.lookup? id = some t) : t ∈ found := by
        obtain ⟨v, hv, hvid⟩ := List.any_eq_true.1 hseen
        have hsame := h.lookup v hv
        rw [beq_iff_eq.1 hvid, (mem_of_lookup? hu).2, ht] at hsame
        exact Option.some.inj hsame ▸ hv
      refine (ih (h.drop hid)).imp_right fun hall => List.forall_mem_cons.2 ⟨fun t ht => ?_, hall⟩
      exact mem_extendFound (hid t ht)
  | case4 found id stack u hu hseen ih =>
      refine (ih (h.add hu)).imp_right fun hall => List.forall_mem_cons.2 ⟨fun t ht => ?_, fun i hi => ?_⟩
      · rw [hu] at ht
        cases ht
        exact mem_extendFound (List.mem_append_right _ List.mem_cons_self)
      · exact hall i (List.mem_append_right _ hi)

end Searching

/-- A search adds what it reaches behind what was found. -/
theorem extendFound_eq_append (types : TypeTable) (stack : List TypeId) (found : List HostType) :
    ∃ rest, types.extendFound stack found = found ++ rest ∧ ∀ t ∈ rest, types.Reaches stack t := by
  fun_induction extendFound types stack found with
  | case1 found => exact ⟨[], (List.append_nil _).symm, fun t ht => absurd ht List.not_mem_nil⟩
  | case2 found id stack hnone ih | case3 found id stack u hu hseen ih =>
      obtain ⟨rest, heq, hrest⟩ := ih
      exact ⟨rest, heq, fun t ht => (hrest t ht).mono fun i => List.mem_cons_of_mem _⟩
  | case4 found id stack u hu hseen ih =>
      obtain ⟨rest, heq, hrest⟩ := ih
      have hself : types.Reaches (id :: stack) u := .named List.mem_cons_self hu
      refine ⟨u :: rest, heq.trans (List.append_assoc ..), List.forall_mem_cons.2 ⟨hself, fun t ht => ?_⟩⟩
      rcases reaches_append.1 (hrest t ht) with h | h
      · exact h.of_interfaces hself
      · exact h.mono fun i => List.mem_cons_of_mem _

/-- A search from the start finds what is reached. -/
theorem mem_extendFound_nil : t ∈ types.extendFound stack [] ↔ types.Reaches stack t := by
  refine ⟨fun h => ?_, fun h => ?_⟩
  · obtain ⟨rest, heq, hrest⟩ := extendFound_eq_append types stack []
    exact hrest t (by rwa [heq] at h)
  have hstart : types.Searching stack [] := ⟨nofun, nofun⟩
  obtain ⟨hclosed, hnamed⟩ := hstart.closed
  induction h with
  | named hi ht => exact hnamed _ hi _ ht
  | extended _ hi ht ih => exact (hclosed.awaited _ ih _ hi _ ht).resolve_left List.not_mem_nil

/-! ## What is taken over -/

/-- Whether a type is in a class chain, or an interface of one there, or reached from further ones. -/
def InScope (types : TypeTable) (base : TypeId) (extra : List TypeId) (t : HostType) : Prop :=
  t ∈ types.lineage base ∨ types.Reaches ((types.lineage base).flatMap (·.interfaces) ++ extra) t

/-- Whether an operation is declared by a type of a class chain, or by an interface that is reached. -/
def Declares (types : TypeTable) (base : TypeId) (extra : List TypeId) (m : Method) : Prop :=
  ∃ t, types.InScope base extra t ∧ m ∈ t.methods

theorem InScope.mem (h : types.InScope base extra t) : t ∈ types := by
  rcases h with h | h
  · exact mem_of_mem_lineage h
  · exact h.mem

/-- A harvest goes through what the types in scope declare. -/
theorem Numbered.mem_sources (h : types.Numbered) {m : Method} :
    m ∈ (types.lineage base ++ types.interfaceList base extra).flatMap (·.methods) ↔
      types.Declares base extra m := by
  rw [List.mem_flatMap, h.interfaceList_eq]
  refine exists_congr fun t => and_congr_left fun _ => ?_
  rw [List.mem_append, mem_extendFound_nil, InScope]

end Interpose.TypeTable

namespace Interpose

/-- The operations to take over are in the order of their slots, each with a slot of its own. -/
theorem sorted_intercept (sources : List HostType) : Gathering.Sorted (intercept sources) := by
  have hstart : Gathering.Covers ⟨[], []⟩ [] :=
    ⟨List.Pairwise.nil, fun s => by simp, fun a => by simp⟩
  exact (hstart.foldl _).sorted

/-- A slot is taken over exactly if a declaration of it may be taken over and none is final. -/
theorem mem_slots_intercept {sources : List HostType} {s : Slot} :
    s ∈ (intercept sources).map (·.slot) ↔
      (∃ m ∈ sources.flatMap (·.methods), m.slot = s ∧ m.isOffered = true) ∧
      ∀ m ∈ sources.flatMap (·.methods), m.slot = s → m.modifiers.isFinal = false := by
  rw [List.mem_map]
  constructor
  · rintro ⟨a, ha, rfl⟩
    obtain ⟨hopen, hfirst⟩ := mem_intercept.1 ha
    have hoffered := List.find?_some hfirst
    rw [Bool.and_eq_true] at hoffered
    exact ⟨⟨a, List.mem_of_find?_eq_some hfirst, rfl, hoffered.1⟩, hopen⟩
  · rintro ⟨⟨m, hm, rfl, hoffered⟩, hopen⟩
    obtain ⟨a, -, ha, hfound⟩ := exists_find?_of_mem (q := fun n => n.isOffered && n.occupies m.slot) hm
      (Method.and_occupies_iff.2 ⟨hoffered, rfl⟩)
    have hslot := (Method.and_occupies_iff.1 hfound).2
    refine ⟨a, mem_intercept.2 ⟨?_, ?_⟩, hslot⟩
    · rwa [hslot]
    · rwa [hslot]

/-- A slot is harvested exactly if a type in scope declares an operation of it that may be taken over, and
none declares a final one. -/
theorem TypeTable.Numbered.mem_slots_harvest {types : TypeTable} (h : types.Numbered) {base : TypeId}
    {extra : List TypeId} {s : Slot} :
    s ∈ (types.harvest base extra).map (·.slot) ↔
      (∃ m, types.Declares base extra m ∧ m.slot = s ∧ m.isOffered = true) ∧
      ∀ m, types.Declares base extra m → m.slot = s → m.modifiers.isFinal = false := by
  rw [harvest, mem_slots_intercept]
  simp only [h.mem_sources]

end Interpose
