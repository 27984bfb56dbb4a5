import Interpose.Harvest.Interception
import Mathlib.Data.List.Sort
import Mathlib.Tactic.Tauto

/-!
# What is taken over

The order of slots tells any two of them apart, so an operation table has one operation for each slot.
It is the first declaration of the slot that may be taken over, unless a final one closes the slot.
-/

namespace Interpose

/-! ## The order of slots -/

namespace ValueType

theorem compare_eq_swap (a b : ValueType) : ValueType.compare a b = (ValueType.compare b a).swap := by
  induction a generalizing b with
  | void => cases b <;> rfl
  | primitive k =>
      cases b with
      | primitive l => exact Std.OrientedOrd.eq_swap
      | void | reference _ | array _ => rfl
  | reference name =>
      cases b with
      | reference other => exact Std.OrientedOrd.eq_swap
      | void | primitive _ | array _ => rfl
  | array a ih =>
      cases b with
      | array b => exact ih b
      | void | primitive _ | reference _ => rfl

theorem compare_isLE_trans {a b c : ValueType} (hab : (ValueType.compare a b).isLE = true)
    (hbc : (ValueType.compare b c).isLE = true) : (ValueType.compare a c).isLE = true := by
  induction a generalizing b c with
  | void => cases c <;> rfl
  | primitive k =>
      cases b <;> cases c <;> first
        | rfl
        | exact absurd hab Bool.false_ne_true
        | exact absurd hbc Bool.false_ne_true
        | exact Std.TransOrd.isLE_trans hab hbc
  | reference name =>
      cases b <;> cases c <;> first
        | rfl
        | exact absurd hab Bool.false_ne_true
        | exact absurd hbc Bool.false_ne_true
        | exact Std.TransOrd.isLE_trans hab hbc
  | array a ih =>
      cases b <;> cases c <;> first
        | rfl
        | exact absurd hab Bool.false_ne_true
        | exact absurd hbc Bool.false_ne_true
        | exact ih hab hbc

theorem eq_of_compare {a b : ValueType} (h : ValueType.compare a b = .eq) : a = b := by
  induction a generalizing b with
  | void => cases b <;> first | rfl | cases h
  | primitive k =>
      cases b <;> try cases h
      exact congrArg primitive (Kind.index_injective (Std.LawfulEqOrd.eq_of_compare h))
  | reference name =>
      cases b <;> try cases h
      exact congrArg reference (Std.LawfulEqOrd.eq_of_compare h)
  | array a ih =>
      cases b <;> try cases h
      exact congrArg array (ih h)

instance : Std.TransOrd ValueType where
  eq_swap := compare_eq_swap _ _
  isLE_trans := compare_isLE_trans

instance : Std.LawfulEqOrd ValueType where
  compare_self := by
    intro a
    have h := compare_eq_swap a a
    change ValueType.compare a a = .eq
    revert h
    cases ValueType.compare a a <;> decide
  eq_of_compare := eq_of_compare

end ValueType

namespace Slot

theorem compareParams_eq (a b : List ValueType) : compareParams a b = compare a b := by
  induction a generalizing b with
  | nil => cases b <;> rfl
  | cons p a ih =>
      cases b with
      | nil => rfl
      | cons q b => rw [compareParams, ih, List.compare_cons_cons]

theorem compare_eq (a b : Slot) : Slot.compare a b =
    compareLex (compareLex (compareOn Slot.name) (compareOn Slot.returns)) (compareOn Slot.params) a b := by
  rw [Slot.compare, compareParams_eq]
  rfl

instance : Std.TransOrd Slot where
  eq_swap {a b} := by
    change Slot.compare a b = (Slot.compare b a).swap
    rw [compare_eq, compare_eq]
    exact Std.OrientedCmp.eq_swap
  isLE_trans {a b c} hab hbc := by
    change (Slot.compare a c).isLE = true
    change (Slot.compare a b).isLE = true at hab
    change (Slot.compare b c).isLE = true at hbc
    rw [compare_eq] at hab hbc ⊢
    exact Std.TransCmp.isLE_trans hab hbc

instance : Std.LawfulEqOrd Slot where
  eq_of_compare {a b} h := by
    change Slot.compare a b = .eq at h
    rw [compare_eq, compareLex_eq_eq, compareLex_eq_eq] at h
    obtain ⟨⟨hname, hreturns⟩, hparams⟩ := h
    rw [compareOn, Std.compare_eq_iff_eq] at hname hreturns hparams
    cases a
    cases b
    rw [Slot.mk.injEq]
    exact ⟨hname, hreturns, hparams⟩

end Slot

/-! ## Tables in order -/

namespace Gathering

variable {m a : Method} {l : List Method}

/-- Whether operations are in the order of their slots, each with a slot of its own. -/
def Sorted (l : List Method) : Prop := l.Pairwise fun a b => compare a.slot b.slot = .lt

theorem Sorted.nodup_slots (h : Sorted l) : (l.map (·.slot)).Nodup := by
  refine List.pairwise_map.2 (h.imp fun {a b} hlt heq => ?_)
  have hself : compare b.slot b.slot = .eq := Std.ReflCmp.compare_self
  rw [heq, hself] at hlt
  cases hlt

/-- Tables that list the same slots list them in the same order. -/
theorem Sorted.slots_eq {l' : List Method} (h : Sorted l) (h' : Sorted l')
    (hsame : ∀ s, s ∈ l'.map (·.slot) ↔ s ∈ l.map (·.slot)) : l'.map (·.slot) = l.map (·.slot) := by
  have hirrefl : Std.Irrefl fun a b : Slot => compare a b = .lt :=
    ⟨fun a hlt => Std.OrientedCmp.not_lt_of_lt hlt hlt⟩
  have hantisymm : Std.Antisymm fun a b : Slot => compare a b = .lt :=
    ⟨fun a b hab hba => absurd hba (Std.OrientedCmp.not_lt_of_lt hab)⟩
  have hsorted {l : List Method} (h : Sorted l) : (l.map (·.slot)).Pairwise fun a b => compare a b = .lt :=
    List.pairwise_map.2 h
  exact (hsorted h').eq_of_mem_iff (hsorted h) hsame

/-- An operation is put in place exactly if none has its slot. -/
theorem mem_insert (hl : Sorted l) :
    a ∈ insert m l ↔ a ∈ l ∨ a = m ∧ ∀ n ∈ l, n.slot ≠ m.slot := by
  induction l with
  | nil => simp [insert]
  | cons n l ih =>
      obtain ⟨hn, hl⟩ := List.pairwise_cons.1 hl
      rw [insert]
      cases hcompare : compare m.slot n.slot with
      | lt =>
          -- everything from here on comes after the operation that is put in
          have hnew : ∀ k ∈ n :: l, k.slot ≠ m.slot := by
            intro k hk hslot
            rcases List.mem_cons.1 hk with rfl | hk
            · rw [hslot, Std.ReflOrd.compare_self] at hcompare
              cases hcompare
            · have hlt := Std.TransCmp.lt_trans hcompare (hn k hk)
              rw [hslot, Std.ReflOrd.compare_self] at hlt
              cases hlt
          rw [List.mem_cons, or_comm, and_iff_left hnew]
      | eq =>
          have hslot := Std.LawfulEqOrd.eq_of_compare hcompare
          simp [hslot]
      | gt =>
          have hne : n.slot ≠ m.slot := by
            intro hslot
            rw [hslot, Std.ReflOrd.compare_self] at hcompare
            cases hcompare
          rw [List.mem_cons, ih hl, List.mem_cons, or_assoc, List.forall_mem_cons, and_iff_right hne]

theorem sorted_insert (hl : Sorted l) : Sorted (insert m l) := by
  induction l with
  | nil => exact List.pairwise_singleton _ _
  | cons n l ih =>
      obtain ⟨hn, hrest⟩ := List.pairwise_cons.1 hl
      rw [insert]
      cases hcompare : compare m.slot n.slot with
      | lt =>
          refine List.pairwise_cons.2 ⟨fun k hk => ?_, hl⟩
          rcases List.mem_cons.1 hk with rfl | hk
          · exact hcompare
          · exact Std.TransCmp.lt_trans hcompare (hn k hk)
      | eq => exact hl
      | gt =>
          refine List.pairwise_cons.2 ⟨fun k hk => ?_, ih hrest⟩
          rcases (mem_insert hrest).1 hk with hk | ⟨rfl, -⟩
          · exact hn k hk
          · exact Std.OrientedCmp.lt_of_gt hcompare

end Gathering

/-! ## Gathering declarations -/

/-- Whether a layer takes an operation over unless its slot is closed. -/
def Method.isOffered (m : Method) : Bool := !m.modifiers.isFinal && m.isInterceptable

/-- What may be taken over is not final, not static, public or protected, and not the hook that is called when
an object goes. -/
theorem Method.isOffered_iff {m : Method} : m.isOffered = true ↔ m.modifiers.isFinal = false ∧
    m.modifiers.isStatic = false ∧ (m.modifiers.isPublic = true ∨ m.modifiers.isProtected = true) ∧
    ¬(m.name = teardownName ∧ m.params = []) := by
  simp only [isOffered, isInterceptable, Bool.and_eq_true, Bool.not_eq_true', Bool.or_eq_true,
    Bool.and_eq_false_iff, beq_eq_false_iff_ne, List.isEmpty_eq_false_iff, and_assoc]
  tauto

namespace Gathering

variable {g : Gathering} {seen : List Method} {m : Method}

/-- Whether what was gathered is what some declarations come to: the closed slots are those of final
ones, and of every other slot the first declaration that is offered was found. -/
structure Covers (g : Gathering) (seen : List Method) : Prop where
  sorted : Sorted g.found
  closed : ∀ s, s ∈ g.closed ↔ ∃ m ∈ seen, m.modifiers.isFinal = true ∧ m.slot = s
  found : ∀ a, a ∈ g.found ↔
    a.slot ∉ g.closed ∧ seen.find? (fun m => m.isOffered && m.occupies a.slot) = some a

/-- The first declaration that is offered of a slot is still the first after another one. -/
theorem find?_concat (a : Method) :
    (seen ++ [m]).find? (fun m => m.isOffered && m.occupies a.slot) = some a ↔
      seen.find? (fun m => m.isOffered && m.occupies a.slot) = some a ∨
      (seen.find? (fun m => m.isOffered && m.occupies a.slot) = none ∧ m.isOffered = true ∧ m = a) := by
  rw [List.find?_append, List.find?_cons, List.find?_nil]
  cases seen.find? (fun m => m.isOffered && m.occupies a.slot) with
  | some n => simp
  | none =>
      cases hoffered : m.isOffered <;> cases hslot : m.occupies a.slot <;> simp
      rintro rfl
      simp [Method.occupies] at hslot

/-- A final declaration closes its slot. -/
theorem Covers.close (h : g.Covers seen) (hfinal : m.modifiers.isFinal = true) :
    Covers ⟨g.found.filter fun n => !n.occupies m.slot, m.slot :: g.closed⟩ (seen ++ [m]) where
  sorted := h.sorted.filter _
  closed s := by
    rw [List.mem_cons, h.closed, or_comm]
    simp only [List.mem_append, List.mem_singleton, or_and_right, exists_or, exists_eq_left, hfinal,
      true_and, eq_comm (a := s)]
  found a := by
    have hoffered : m.isOffered = false := by rw [Method.isOffered, hfinal]; rfl
    have hslot : (!a.occupies m.slot) = true ↔ a.slot ≠ m.slot := by simp [Method.occupies]
    rw [List.mem_filter, h.found, find?_concat, hoffered, List.mem_cons, not_or, hslot]
    simp only [Bool.false_eq_true, false_and, and_false, or_false]
    tauto

/-- A declaration that is not final leaves the closed slots as they are. -/
theorem Covers.closed_concat (h : g.Covers seen) (hfinal : m.modifiers.isFinal = false) (s : Slot) :
    s ∈ g.closed ↔ ∃ n ∈ seen ++ [m], n.modifiers.isFinal = true ∧ n.slot = s := by
  rw [h.closed]
  simp only [List.mem_append, List.mem_singleton, or_and_right, exists_or, exists_eq_left, hfinal,
    Bool.false_eq_true, false_and, or_false]

/-- A declaration that is offered stands for its slot, unless that is closed or there is one before. -/
theorem Covers.offer (h : g.Covers seen) (hoffered : m.isOffered = true) (hopen : m.slot ∉ g.closed) :
    Covers ⟨insert m g.found, g.closed⟩ (seen ++ [m]) where
  sorted := sorted_insert h.sorted
  closed := by
    rw [Method.isOffered, Bool.and_eq_true, Bool.not_eq_true'] at hoffered
    exact h.closed_concat hoffered.1
  found a := by
    rw [mem_insert h.sorted, h.found, find?_concat, and_or_left]
    refine or_congr_right ?_
    constructor
    · rintro ⟨rfl, hnew⟩
      refine ⟨hopen, ?_, hoffered, rfl⟩
      rw [Option.eq_none_iff_forall_ne_some]
      intro n hn
      have hslot := List.find?_some hn
      rw [Bool.and_eq_true, Method.occupies, beq_iff_eq] at hslot
      refine hnew n ((h.found n).2 ?_) hslot.2
      rw [hslot.2]
      exact ⟨hopen, hn⟩
    · rintro ⟨-, hnone, -, rfl⟩
      refine ⟨rfl, fun n hn hslot => ?_⟩
      have hfound := ((h.found n).1 hn).2
      rw [hslot, hnone] at hfound
      cases hfound

/-- A declaration that is neither final nor offered, or whose slot is closed, changes nothing. -/
theorem Covers.skip (h : g.Covers seen) (hfinal : m.modifiers.isFinal = false)
    (hskip : m.isOffered = true → m.slot ∈ g.closed) : g.Covers (seen ++ [m]) where
  sorted := h.sorted
  closed := h.closed_concat hfinal
  found a := by
    rw [h.found, find?_concat]
    refine and_congr_right fun hopen => (or_iff_left ?_).symm
    rintro ⟨-, hoffered, rfl⟩
    exact hopen (hskip hoffered)

theorem Covers.add (h : g.Covers seen) (m : Method) : (g.add m).Covers (seen ++ [m]) := by
  rw [Gathering.add]
  cases hfinal : m.modifiers.isFinal with
  | true => exact h.close hfinal
  | false =>
      have hoffered : m.isOffered = m.isInterceptable := by rw [Method.isOffered, hfinal]; rfl
      simp only [Bool.false_eq_true, if_false]
      split
      · rename_i hopen
        rw [Bool.and_eq_true, Bool.not_eq_true', ← Bool.not_eq_true, List.contains_iff_mem] at hopen
        exact h.offer (hoffered.trans hopen.1) hopen.2
      · rename_i hskip
        refine h.skip hfinal fun h => ?_
        rw [← hoffered, h, Bool.true_and, Bool.not_eq_true', Bool.not_eq_false,
          List.contains_iff_mem] at hskip
        exact hskip

theorem Covers.foldl (h : g.Covers seen) (methods : List Method) :
    (methods.foldl Gathering.add g).Covers (seen ++ methods) := by
  induction methods generalizing g seen with
  | nil => rwa [List.append_nil]
  | cons m methods ih =>
      rw [List.foldl_cons, List.append_cons]
      exact ih (h.add m)

end Gathering

/-- An operation table lists, in the order of their slots, the first declaration that is offered of each
slot that no final declaration closes. -/
theorem mem_intercept {sources : List HostType} {a : Method} :
    a ∈ intercept sources ↔
      (∀ m ∈ sources.flatMap (·.methods), m.slot = a.slot → m.modifiers.isFinal = false) ∧
      (sources.flatMap (·.methods)).find? (fun m => m.isOffered && m.occupies a.slot) = some a := by
  have hstart : Gathering.Covers ⟨[], []⟩ [] :=
    ⟨List.Pairwise.nil, fun s => by simp, fun a => by simp⟩
  have hcovers := hstart.foldl (sources.flatMap (·.methods))
  rw [List.nil_append] at hcovers
  rw [intercept, hcovers.found, hcovers.closed]
  refine and_congr_left fun _ => ?_
  simp only [not_exists, not_and, Bool.eq_false_iff]
  exact forall₂_congr fun m _ => ⟨fun h hslot hfinal => h hfinal hslot, fun h hfinal hslot => h hslot hfinal⟩

end Interpose
