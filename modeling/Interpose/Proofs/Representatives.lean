import Interpose.Proofs.Granting

/-!
# Declarations that stand for slots

A walk goes through the declarations of a class chain and then through those of some interfaces. Whatever it
meets, in whatever order, it lists the slots of which something may be taken over and nothing is final. Each is
listed once, in the order of slots, and the first declaration that may be taken over stands for it.
-/

namespace Interpose

variable {operations : List Method} {chain interfaces : List HostType} {a : Method} {i : Nat}

/-- The declarations of a class chain and of some interfaces, in the order in which a walk meets them. -/
def walk (chain interfaces : List HostType) : List Method := (chain ++ interfaces).flatMap (·.methods)

/-- The position of a slot in a table without repetitions is that of its operation. -/
theorem indexOf?_of_getElem? (h : (operations.map (·.slot)).Nodup) (ha : operations[i]? = some a) :
    indexOf? operations a.slot = some i := by
  obtain ⟨hlt, rfl⟩ := List.getElem?_eq_some_iff.1 ha
  refine List.findIdx?_eq_some_iff_getElem.2 ⟨hlt, beq_self_eq_true _, fun j hj hoccupies => ?_⟩
  -- an earlier operation of the slot would be a repetition
  have hslot : operations[j].slot = operations[i].slot := beq_iff_eq.1 hoccupies
  have hsame : (operations.map (·.slot))[j]? = (operations.map (·.slot))[i]? := by
    rw [List.getElem?_map, List.getElem?_map, List.getElem?_eq_getElem (hj.trans hlt),
      List.getElem?_eq_getElem hlt, Option.map_some, Option.map_some, hslot]
  have hindex := (List.getElem?_inj (by rw [List.length_map]; exact hj.trans hlt) h).1 hsame
  exact absurd hindex (Nat.ne_of_lt hj)

/-- What stands for its slot is the first declaration of it that may be taken over. -/
theorem first_of_mem_intercept (h : a ∈ intercept (chain ++ interfaces)) :
    ∃ before after, walk chain interfaces = before ++ a :: after ∧ a.isOffered = true ∧
      ∀ m ∈ before, m.slot = a.slot → m.isOffered = false := by
  obtain ⟨-, hfirst⟩ := mem_intercept.1 h
  obtain ⟨hoffered, before, after, hwalk, hbefore⟩ := List.find?_eq_some_iff_append.1 hfirst
  refine ⟨before, after, hwalk, (Method.and_occupies_iff.1 hoffered).1, fun m hm hslot => ?_⟩
  have hnot := hbefore m hm
  rw [Bool.not_eq_true', Bool.eq_false_iff] at hnot
  exact Bool.eq_false_iff.2 fun hm => hnot (Method.and_occupies_iff.2 ⟨hm, hslot⟩)

/-- **Interception.** A walk over any class chain and any interfaces lists a slot exactly if it meets a declaration
of it that is neither final nor static and is public or protected, other than the hook that is called when an object
goes, and meets no final declaration of it. The first of these declarations stands for the slot. Slots are
listed in strict order, each is found at its own position, and which are listed depends only on which declarations
are met. -/
theorem intercept_exact (chain interfaces : List HostType) :
    (∀ s, s ∈ (intercept (chain ++ interfaces)).map (·.slot) ↔
      (∃ m ∈ walk chain interfaces, m.slot = s ∧ m.modifiers.isFinal = false ∧ m.modifiers.isStatic = false ∧
        (m.modifiers.isPublic = true ∨ m.modifiers.isProtected = true) ∧
        ¬(m.name = teardownName ∧ m.params = [])) ∧
      ∀ m ∈ walk chain interfaces, m.slot = s → m.modifiers.isFinal = false) ∧
    (∀ a ∈ intercept (chain ++ interfaces), ∃ before after, walk chain interfaces = before ++ a :: after ∧
      a.isOffered = true ∧ ∀ m ∈ before, m.slot = a.slot → m.isOffered = false) ∧
    (intercept (chain ++ interfaces)).Pairwise (fun a b => compare a.slot b.slot = .lt) ∧
    (∀ i a, (intercept (chain ++ interfaces))[i]? = some a →
      indexOf? (intercept (chain ++ interfaces)) a.slot = some i) ∧
    ∀ chain' interfaces', (∀ m, m ∈ walk chain' interfaces' ↔ m ∈ walk chain interfaces) →
      (intercept (chain' ++ interfaces')).map (·.slot) = (intercept (chain ++ interfaces)).map (·.slot) := by
  have hsorted := sorted_intercept (chain ++ interfaces)
  refine ⟨fun s => ?_, fun a => first_of_mem_intercept, hsorted, fun i a => indexOf?_of_getElem? hsorted.nodup_slots,
    fun chain' interfaces' hsame => ?_⟩
  · rw [mem_slots_intercept]
    simp only [Method.isOffered_iff, walk]
  · refine hsorted.slots_eq (sorted_intercept _) fun s => ?_
    rw [mem_slots_intercept, mem_slots_intercept]
    simp only [walk] at hsame
    simp only [hsame]

/-- Whichever of the class and the interface a walk meets first, it lists the operation that is open and not the
name, which is final in the class. -/
theorem intercept_exact_badge :
    (∀ m, m ∈ walk [named] [badge] ↔ m ∈ walk [badge] [named]) ∧
    (intercept ([named] ++ [badge])).map (·.slot) = (intercept ([badge] ++ [named])).map (·.slot) ∧
    badgeName.slot ∉ (intercept ([badge] ++ [named])).map (·.slot) ∧
    badgeWear.slot ∈ (intercept ([badge] ++ [named])).map (·.slot) := by
  have hsame (m : Method) : m ∈ walk [named] [badge] ↔ m ∈ walk [badge] [named] := by
    simp only [walk, List.mem_flatMap, List.mem_append, or_comm]
  obtain ⟨hlisted, -, -, -, horder⟩ := intercept_exact [badge] [named]
  refine ⟨hsame, horder [named] [badge] hsame, fun hname => ?_, (hlisted _).2 ⟨?_, ?_⟩⟩
  · have hfinal := ((hlisted _).1 hname).2 badgeName (by simp [walk, badge, gauge]) rfl
    exact absurd hfinal (by decide)
  · exact ⟨badgeWear, by simp [walk, badge, gauge], rfl, by decide⟩
  · decide

end Interpose
