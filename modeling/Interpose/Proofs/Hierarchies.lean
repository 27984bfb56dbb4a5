import Interpose.Host.Hierarchy
import Mathlib.Data.List.Basic

/-!
# Growing hierarchies

Every type is numbered by how many were there before it, and names older types only. So a table keeps
what it says about a type when further types are added in front.
-/

namespace Interpose.TypeTable

/-- Whether each type of a table has the number of its position and names older types only. -/
def Numbered : TypeTable → Prop
  | [] => True
  | t :: older =>
    t.id = fresh older ∧ (∀ s ∈ t.superclass, s.index < older.length) ∧
      (∀ s ∈ t.interfaces, s.index < older.length) ∧ Numbered older

variable {new types : TypeTable} {id : TypeId} {t : HostType}

theorem Numbered.of_append (h : Numbered (new ++ types)) : Numbered types := by
  induction new with
  | nil => exact h
  | cons t new ih => exact ih h.2.2.2

/-- Types that are added are not the ones that were there. -/
theorem Numbered.ne_of_mem (h : Numbered (new ++ types)) (hid : id.index < types.length)
    (ht : t ∈ new) : t.id ≠ id := by
  induction new with
  | nil => cases ht
  | cons s new ih =>
      rcases List.mem_cons.1 ht with rfl | ht
      · intro heq
        have hfresh : id.index = (new ++ types).length := by rw [← heq, h.1]; rfl
        rw [List.length_append] at hfresh
        omega
      · exact ih h.2.2.2 ht

/-- The numbers of the types of a table are below its length. -/
theorem Numbered.index_lt (h : Numbered types) (ht : t ∈ types) : t.id.index < types.length := by
  induction types with
  | nil => cases ht
  | cons s older ih =>
      rw [List.length_cons]
      rcases List.mem_cons.1 ht with rfl | ht
      · rw [h.1]
        exact Nat.lt_succ_self _
      · exact Nat.lt_succ_of_lt (ih h.2.2.2 ht)

/-- What a type of a table names is in the table. -/
theorem Numbered.names_lt (h : Numbered types) (ht : t ∈ types) :
    (∀ s ∈ t.superclass, s.index < types.length) ∧ ∀ s ∈ t.interfaces, s.index < types.length := by
  induction types with
  | nil => cases ht
  | cons s older ih =>
      rw [List.length_cons]
      rcases List.mem_cons.1 ht with rfl | ht
      · exact ⟨fun s hs => Nat.lt_succ_of_lt (h.2.1 s hs), fun s hs => Nat.lt_succ_of_lt (h.2.2.1 s hs)⟩
      · obtain ⟨hsuper, hinterfaces⟩ := ih h.2.2.2 ht
        exact ⟨fun s hs => Nat.lt_succ_of_lt (hsuper s hs),
          fun s hs => Nat.lt_succ_of_lt (hinterfaces s hs)⟩

theorem mem_of_lookup? (h : types.lookup? id = some t) : t ∈ types ∧ t.id = id := by
  have hid := List.find?_some h
  exact ⟨List.mem_of_find?_eq_some h, beq_iff_eq.1 hid⟩

theorem Numbered.lookup?_append (h : Numbered (new ++ types)) (hid : id.index < types.length) :
    lookup? (new ++ types) id = lookup? types id := by
  have hnone : new.find? (fun t => t.id == id) = none :=
    List.find?_eq_none.2 fun t ht heq => h.ne_of_mem hid ht (beq_iff_eq.1 heq)
  rw [lookup?, List.find?_append, hnone, Option.none_or, lookup?]

theorem lineage_append (hnew : ∀ t ∈ new, t.id ≠ id) : lineage (new ++ types) id = lineage types id := by
  induction new with
  | nil => rfl
  | cons t new ih =>
      rw [List.cons_append, lineage, if_neg (hnew t List.mem_cons_self)]
      exact ih fun s hs => hnew s (List.mem_cons_of_mem _ hs)

theorem collect_append (hnew : ∀ t ∈ new, t.id ≠ id) (found : List HostType) :
    collect (new ++ types) id found = collect types id found := by
  induction new with
  | nil => rfl
  | cons t new ih =>
      rw [List.cons_append, collect, if_neg (hnew t List.mem_cons_self)]
      exact ih fun s hs => hnew s (List.mem_cons_of_mem _ hs)

theorem mem_of_mem_lineage (h : t ∈ lineage types id) : t ∈ types := by
  induction types generalizing id with
  | nil => cases h
  | cons s older ih =>
      rw [lineage] at h
      split at h
      · rcases List.mem_cons.1 h with rfl | h
        · exact List.mem_cons_self
        · cases hsuper : s.superclass with
          | none =>
              rw [hsuper] at h
              cases h
          | some parent =>
              rw [hsuper] at h
              exact List.mem_cons_of_mem _ (ih h)
      · exact List.mem_cons_of_mem _ (ih h)

/-- The class chain of a type ends every class chain that the type is in. -/
theorem Numbered.lineage_suffix (h : Numbered types) (ht : t ∈ lineage types id) :
    lineage types t.id <:+ lineage types id := by
  induction types generalizing id with
  | nil => cases ht
  | cons s older ih =>
      have hother (hmem : t ∈ older) : lineage (s :: older) t.id = lineage older t.id := by
        have hnew : Numbered ([s] ++ older) := h
        rw [lineage, if_neg (hnew.ne_of_mem (h.2.2.2.index_lt hmem) List.mem_cons_self)]
      rw [lineage] at ht
      split at ht
      · rename_i hs
        rcases List.mem_cons.1 ht with rfl | ht
        · exact hs ▸ List.suffix_rfl
        obtain ⟨parent, hsuper, ht⟩ : ∃ parent, s.superclass = some parent ∧ t ∈ lineage older parent := by
          cases hsuper : s.superclass with
          | none =>
              rw [hsuper] at ht
              cases ht
          | some parent =>
              rw [hsuper] at ht
              exact ⟨parent, rfl, ht⟩
        rw [hother (mem_of_mem_lineage ht), lineage, if_pos hs, hsuper]
        exact (ih h.2.2.2 ht).trans (List.suffix_cons s _)
      · rename_i hs
        rw [hother (mem_of_mem_lineage ht), lineage, if_neg hs]
        exact ih h.2.2.2 ht

theorem id_of_lookup? (h : types.lookup? id = some t) : t.id = id := by
  have hid := List.find?_some h
  exact beq_iff_eq.1 hid

/-- A class chain starts with the type itself. -/
theorem lineage_of_lookup? (h : types.lookup? id = some t) : ∃ rest, types.lineage id = t :: rest := by
  induction types with
  | nil => cases h
  | cons s older ih =>
      rw [lookup?, List.find?_cons] at h
      rw [lineage]
      by_cases hs : s.id = id
      · rw [beq_iff_eq.2 hs] at h
        cases h
        rw [if_pos hs]
        exact ⟨_, rfl⟩
      · rw [beq_eq_false_iff_ne.2 hs] at h
        rw [if_neg hs]
        exact ih h

theorem mem_lineage (h : types.lookup? id = some t) : t ∈ types.lineage id := by
  obtain ⟨rest, hlineage⟩ := lineage_of_lookup? h
  rw [hlineage]
  exact List.mem_cons_self

/-- Only a type of a table has a class chain in it. -/
theorem Numbered.index_lt_of_mem_lineage (h : Numbered types) (ht : t ∈ lineage types id) :
    id.index < types.length := by
  induction types with
  | nil => cases ht
  | cons s older ih =>
      rw [lineage] at ht
      split at ht
      · rename_i hs
        exact hs ▸ h.index_lt List.mem_cons_self
      · exact Nat.lt_succ_of_lt (ih h.2.2.2 ht)

/-- A type of a table is found under its number. -/
theorem Numbered.lookup?_of_mem (h : Numbered types) (ht : t ∈ types) : types.lookup? t.id = some t := by
  induction types with
  | nil => cases ht
  | cons s older ih =>
      rw [lookup?, List.find?_cons]
      rcases List.mem_cons.1 ht with rfl | ht
      · rw [beq_self_eq_true]
      · have hgrown : Numbered ([s] ++ older) := h
        have hne := hgrown.ne_of_mem (h.2.2.2.index_lt ht) List.mem_cons_self
        rw [beq_eq_false_iff_ne.2 hne]
        exact ih h.2.2.2 ht

/-- A type is there for each of the identities that a table of numbered types has given. -/
theorem Numbered.exists_lookup? (h : Numbered types) (hid : id.index < types.length) : ∃ t, types.lookup? id = some t := by
  induction types with
  | nil => exact absurd hid (Nat.not_lt_zero _)
  | cons t older ih =>
      rw [lookup?, List.find?_cons]
      split
      · exact ⟨t, rfl⟩
      · rename_i hne
        refine ih h.2.2.2 (Nat.lt_of_le_of_ne (Nat.le_of_lt_succ hid) fun heq => ?_)
        have hsame : t.id = id := h.1.trans (congrArg TypeId.mk heq.symm)
        rw [hsame, beq_self_eq_true] at hne
        cases hne

/-- What holds of the types of a table and of those found holds of what is found with them. -/
theorem forall_mem_collect {Q : HostType → Prop} {found : List HostType} (htypes : ∀ t ∈ types, Q t)
    (hfound : ∀ t ∈ found, Q t) : ∀ t ∈ collect types id found, Q t := by
  induction types generalizing id found with
  | nil => exact hfound
  | cons s older ih =>
      have hrest := fun t ht => htypes t (List.mem_cons_of_mem _ ht)
      rw [collect]
      split
      · split
        · exact hfound
        · refine List.foldlRecOn (motive := fun found => ∀ t ∈ found, Q t) _ _ ?_
            fun found hfound i _ => ih hrest hfound
          intro t ht
          rcases List.mem_append.1 ht with ht | ht
          · exact hfound t ht
          · exact List.mem_singleton.1 ht ▸ htypes s List.mem_cons_self
      · exact ih hrest hfound

/-- What is found besides a type that extends nothing does not depend on when that is found. -/
theorem collect_filter {c : TypeId} (hleaf : ∀ s ∈ types, s.id = c → s.interfaces = [])
    {found found' : List HostType} (h : found.filter (·.id != c) = found'.filter (·.id != c)) :
    (collect types id found).filter (·.id != c) = (collect types id found').filter (·.id != c) := by
  -- on the table for both lists at once, which stay alike but for the type
  induction types generalizing id found found' with
  | nil => exact h
  | cons s older ih =>
      have hrest := fun s hs => hleaf s (List.mem_cons_of_mem _ hs)
      rw [collect, collect]
      split
      · rename_i hs
        by_cases hc : s.id = c
        · have hsame (found : List HostType) : (if found.any (·.id == id) then found
              else s.interfaces.foldl (fun found i => collect older i found) (found ++ [s])).filter
                (·.id != c) = found.filter (·.id != c) := by
            rw [hleaf s List.mem_cons_self hc]
            split
            · rfl
            · simp [hc]
          rw [hsame, hsame, h]
        · -- another type is looked for in both lists with the same answer
          have hany (found : List HostType) : found.any (·.id == id) =
              (found.filter (·.id != c)).any (·.id == id) := by
            rw [List.any_filter]
            congr 1
            funext u
            by_cases hu : u.id = id
            · simp [hu, ← hs, hc]
            · simp [hu]
          rw [hany found, hany found', h]
          split
          · exact h
          · refine List.foldl_rel (r := fun found found' : List HostType =>
              found.filter (·.id != c) = found'.filter (·.id != c)) ?_ fun i _ _ _ h => ih hrest h
            rw [List.filter_append, List.filter_append, h]
      · exact ih hrest h

/-! ## Interfaces of several types -/

/-- Adds the interfaces of some types to those already found. -/
def gather (types : TypeTable) (l found : List HostType) : List HostType :=
  l.foldl (fun found t => t.interfaces.foldl (fun found i => collect types i found) found) found

theorem allInterfaces_eq (types : TypeTable) (id : TypeId) :
    allInterfaces types id = gather types (lineage types id) [] := rfl

theorem gather_cons (types : TypeTable) (t : HostType) (l found : List HostType) :
    gather types (t :: l) found =
      gather types l (t.interfaces.foldl (fun found i => collect types i found) found) := rfl

/-- Adding interfaces of the types of a list looks only at what these name. -/
theorem gather_congr {types' : TypeTable} {l found : List HostType}
    (h : ∀ t ∈ l, ∀ i ∈ t.interfaces, ∀ found, collect types' i found = collect types i found) :
    gather types' l found = gather types l found := by
  refine List.foldl_ext _ _ _ fun found t ht => List.foldl_ext _ _ _ fun found i hi => ?_
  exact h t ht i hi found

/-- What holds of the types of a table and of those found holds of what is found with them. -/
theorem forall_mem_gather {Q : HostType → Prop} {l found : List HostType} (htypes : ∀ t ∈ types, Q t)
    (hfound : ∀ t ∈ found, Q t) : ∀ t ∈ gather types l found, Q t := by
  refine List.foldlRecOn (motive := fun found => ∀ t ∈ found, Q t) _ _ hfound fun found hfound s _ => ?_
  exact List.foldlRecOn (motive := fun found => ∀ t ∈ found, Q t) _ _ hfound
    fun found hfound i _ => forall_mem_collect htypes hfound

/-- The same holds of the interfaces of some types. -/
theorem gather_filter {c : TypeId} (hleaf : ∀ s ∈ types, s.id = c → s.interfaces = [])
    {l found found' : List HostType}
    (h : found.filter (·.id != c) = found'.filter (·.id != c)) :
    (gather types l found).filter (·.id != c) = (gather types l found').filter (·.id != c) := by
  refine List.foldl_rel (r := fun found found' : List HostType =>
    found.filter (·.id != c) = found'.filter (·.id != c)) h fun s _ _ _ h => ?_
  exact List.foldl_rel (r := fun found found' : List HostType =>
    found.filter (·.id != c) = found'.filter (·.id != c)) h fun i _ _ _ h => collect_filter hleaf h

/-- A table says the same about the interfaces of a type when it grows. -/
theorem Numbered.allInterfaces_append (h : Numbered (new ++ types)) (hid : id.index < types.length) :
    allInterfaces (new ++ types) id = allInterfaces types id := by
  rw [allInterfaces_eq, allInterfaces_eq, lineage_append fun t => h.ne_of_mem hid]
  refine gather_congr fun t ht i hi found => collect_append (fun s => h.ne_of_mem ?_) found
  exact (h.of_append.names_lt (mem_of_mem_lineage ht)).2 i hi

/-- A table says the same about the operations of a type when it grows. -/
theorem Numbered.methodsOf_append (h : Numbered (new ++ types)) (hid : id.index < types.length) :
    methodsOf (new ++ types) id = methodsOf types id := by
  rw [methodsOf, methodsOf, lineage_append fun t => h.ne_of_mem hid, h.allInterfaces_append hid]

/-- The operations of a type are those of types in the table. -/
theorem exists_of_mem_methodsOf {m : Method} (h : m ∈ methodsOf types id) : ∃ t ∈ types, m ∈ t.methods := by
  rcases List.mem_append.1 h with h | h
  · obtain ⟨t, ht, hm⟩ := List.mem_flatMap.1 h
    exact ⟨t, mem_of_mem_lineage ht, hm⟩
  · obtain ⟨t, ht, hm⟩ := List.mem_flatMap.1 h
    exact ⟨t, forall_mem_gather (Q := (· ∈ types)) (fun _ hs => hs) (List.forall_mem_nil _) t ht, hm⟩

/-- What no step looks at stays in front. -/
theorem foldl_cons_of_step {f : List HostType → TypeId → List HostType}
    (h : ∀ found i, f (t :: found) i = t :: f found i) (l : List TypeId) (found : List HostType) :
    l.foldl f (t :: found) = t :: l.foldl f found := by
  induction l generalizing found with
  | nil => rfl
  | cons i l ih => rw [List.foldl_cons, List.foldl_cons, h, ih]

/-- A type that is no older type does not matter for what is added further. -/
theorem collect_cons {older : TypeTable} (h : ∀ s ∈ older, s.id ≠ t.id) (i : TypeId)
    (found : List HostType) : collect older i (t :: found) = t :: collect older i found := by
  induction older generalizing i found with
  | nil => rfl
  | cons s older ih =>
      have hrest := ih fun s hs => h s (List.mem_cons_of_mem _ hs)
      rw [collect, collect]
      split
      · rename_i hs
        have hne : (t.id == i) = false :=
          beq_eq_false_iff_ne.2 fun heq => h s List.mem_cons_self (hs.trans heq.symm)
        rw [List.any_cons, hne, Bool.false_or]
        split
        · rfl
        · exact foldl_cons_of_step (fun found j => hrest j found) _ _
      · exact hrest i found

/-- The interfaces that a type without superclass extends are found after it. -/
theorem Numbered.collect_eq (h : Numbered types) (ht : types.lookup? id = some t)
    (hsuper : t.superclass = none) :
    types.lineage id = [t] ∧ collect types id [] = t :: allInterfaces types id := by
  induction types with
  | nil => cases ht
  | cons s older ih =>
      have hindex : s.id.index = older.length := congrArg TypeId.index h.1
      rw [lookup?, List.find?_cons] at ht
      by_cases hs : s.id = id
      · rw [beq_iff_eq.2 hs] at ht
        obtain rfl : s = t := Option.some.inj ht
        have hlineage : lineage (s :: older) id = [s] := by rw [lineage, if_pos hs, hsuper]
        -- the type comes last, and what it extends is older
        have holder (i : TypeId) (hi : i.index < older.length) : s.id ≠ i := by
          rintro rfl
          omega
        refine ⟨hlineage, ?_⟩
        rw [allInterfaces, hlineage, collect, if_pos hs, List.foldl_cons, List.foldl_nil]
        refine (foldl_cons_of_step (fun found i => collect_cons (fun u hu => ?_) i found) _ []).trans ?_
        · exact (holder _ (h.2.2.2.index_lt hu)).symm
        · refine congrArg _ (List.foldl_ext _ _ _ fun found i hi => ?_)
          rw [collect, if_neg (holder i (h.2.2.1 i hi))]
      · rw [beq_eq_false_iff_ne.2 hs] at ht
        obtain ⟨hlineage, hcollect⟩ := ih h.2.2.2 ht
        obtain ⟨hmem, hid⟩ := mem_of_lookup? ht
        have hlt : id.index < older.length := hid ▸ h.2.2.2.index_lt hmem
        have hgrown : Numbered ([s] ++ older) := h
        rw [lineage, if_neg hs, collect, if_neg hs, hcollect]
        exact ⟨hlineage, congrArg _ (hgrown.allInterfaces_append hlt).symm⟩

end Interpose.TypeTable
