import Interpose.Code.Builder
import Interpose.Code.Verify
import Mathlib.Data.List.Nodup

/-!
# What finished code holds

A builder only adds to what it holds, and every branch that it knows is at the position of an
instruction with a target. So finished code has the constants of its builder, and its instructions
but for the targets of branches, which are the positions of their labels.
-/

namespace Interpose.CodeBuilder

/-! ## What operations add -/

section Fields

variable (b : CodeBuilder) (i : Instr) (c : Constant) (make : UInt16 → Instr)
  (branch : UInt32 → Instr) (label : Nat)

@[simp] theorem size_emit : (b.emit i).instrs.size = b.instrs.size + 1 := Array.size_push _

@[simp] theorem size_emitWith : (b.emitWith c make).instrs.size = b.instrs.size + 1 :=
  Array.size_push _

theorem size_loads (l : List Nat) :
    (l.foldl (fun b i => b.load (UInt16.ofNat i)) b).instrs.size = b.instrs.size + l.length := by
  induction l generalizing b with
  | nil => rfl
  | cons i l ih =>
      rw [List.foldl_cons, ih, load, size_emit, List.length_cons, Nat.add_assoc, Nat.add_comm 1]

theorem size_retAs_le (t : ValueType) : (b.retAs t).instrs.size ≤ b.instrs.size + 2 := by
  cases t <;> simp [retAs, checkCast]

end Fields

/-- What is there stays there when another item is added. -/
theorem getElem?_push_of_eq_some {α : Type} {xs : Array α} {j : Nat} {x : α} (h : xs[j]? = some x)
    (y : α) : (xs.push y)[j]? = some x := by
  rw [Array.getElem?_push_lt (Array.getElem?_eq_some_iff.1 h).1]
  exact (Array.getElem?_eq_getElem _).symm.trans h

/-- Whether a builder is another one with instructions and constants added, and no labels. -/
structure Continues (b' b : CodeBuilder) : Prop where
  instrs : ∀ {j : Nat} {x : Instr}, b.instrs[j]? = some x → b'.instrs[j]? = some x
  constants : ∀ {j : Nat} {c : Constant}, b.constants[j]? = some c → b'.constants[j]? = some c
  branches : b'.branches = b.branches
  marks : b'.marks = b.marks
  name : b'.name = b.name
  locals : b'.locals = b.locals

section Continues

variable {b b' b'' : CodeBuilder}

theorem Continues.refl (b : CodeBuilder) : b.Continues b := ⟨id, id, rfl, rfl, rfl, rfl⟩

theorem Continues.trans (h : b''.Continues b') (h' : b'.Continues b) : b''.Continues b :=
  ⟨fun hx => h.instrs (h'.instrs hx), fun hc => h.constants (h'.constants hc),
    h.branches.trans h'.branches, h.marks.trans h'.marks, h.name.trans h'.name,
    h.locals.trans h'.locals⟩

theorem Continues.emit (h : b'.Continues b) (i : Instr) : (b'.emit i).Continues b :=
  ⟨fun hx => getElem?_push_of_eq_some (h.instrs hx) i, h.constants, h.branches, h.marks, h.name,
    h.locals⟩

theorem Continues.emitWith (h : b'.Continues b) (c : Constant) (make : UInt16 → Instr) :
    (b'.emitWith c make).Continues b :=
  ⟨fun hx => getElem?_push_of_eq_some (h.instrs hx) _,
    fun hc => getElem?_push_of_eq_some (h.constants hc) c, h.branches, h.marks, h.name, h.locals⟩

theorem Continues.loads (h : b'.Continues b) (l : List Nat) :
    (l.foldl (fun b i => b.load (UInt16.ofNat i)) b').Continues b := by
  induction l generalizing b' with
  | nil => exact h
  | cons i l ih => exact ih (h.emit _)

theorem Continues.retAs (h : b'.Continues b) (t : ValueType) : (b'.retAs t).Continues b := by
  cases t with
  | void => exact h.emit _
  | primitive kind => exact (h.emit _).emit _
  | reference _ | array _ => exact (h.emitWith _ _).emit _

theorem Continues.markOf?_eq (h : b'.Continues b) (label : Nat) :
    b'.markOf? label = b.markOf? label := by
  rw [markOf?, markOf?, h.marks]

end Continues

/-! ## Well-formed builders -/

/-- Whether every branch of a builder is at the position of an instruction with a target, and no two
are at one position. -/
structure WellFormed (b : CodeBuilder) : Prop where
  branch : ∀ j l, (j, l) ∈ b.branches → ∃ x, b.instrs[j]? = some x ∧ x.target? ≠ none
  distinct : (b.branches.map (·.1)).Nodup

section WellFormed

variable {b b' : CodeBuilder}

theorem wellFormed_start (name : String) (params : Nat) : (start name params).WellFormed :=
  ⟨fun _ _ h => (List.not_mem_nil h).elim, List.nodup_nil⟩

theorem Continues.wellFormed (h : b'.Continues b) (hb : b.WellFormed) : b'.WellFormed where
  branch j l hj := by
    rw [h.branches] at hj
    obtain ⟨x, hx, htarget⟩ := hb.branch j l hj
    exact ⟨x, h.instrs hx, htarget⟩
  distinct := by
    rw [h.branches]
    exact hb.distinct

theorem WellFormed.emitBranch (h : b.WellFormed) {make : UInt32 → Instr}
    (hmake : ∀ t, (make t).target? ≠ none) (label : Nat) : (b.emitBranch make label).WellFormed where
  branch j l hj := by
    rcases List.mem_cons.1 hj with heq | hj
    · cases heq
      exact ⟨_, Array.getElem?_push_size, hmake _⟩
    · obtain ⟨x, hx, htarget⟩ := h.branch j l hj
      exact ⟨x, getElem?_push_of_eq_some hx _, htarget⟩
  distinct := by
    refine List.nodup_cons.2 ⟨fun hmem => ?_, h.distinct⟩
    obtain ⟨⟨j, l⟩, hj, heq⟩ := List.mem_map.1 hmem
    obtain ⟨x, hx, -⟩ := h.branch j l hj
    have hlt := (Array.getElem?_eq_some_iff.1 hx).1
    simp only at heq
    omega

theorem WellFormed.defineLabel (h : b.WellFormed) : b.defineLabel.2.WellFormed :=
  ⟨h.branch, h.distinct⟩

theorem WellFormed.markLabel (h : b.WellFormed) (label : Nat) : (b.markLabel label).WellFormed :=
  ⟨h.branch, h.distinct⟩

end WellFormed

/-! ## Patching -/

section Patch

variable {b : CodeBuilder} {branches : List (Nat × Nat)} {instrs patched : Array Instr}

/-- One branch is patched before the others. -/
theorem patch_cons {j l : Nat} (h : b.patch ((j, l) :: branches) instrs = .ok patched) :
    ∃ p, b.markOf? l = some p ∧
      b.patch branches (instrs.modify j (retarget (UInt32.ofNat p))) = .ok patched := by
  rw [patch] at h
  split at h
  · cases h
  next p hp => exact ⟨p, hp, h⟩

/-- Branches are patched if their labels are marked. -/
theorem exists_patch (h : ∀ x ∈ branches, ∃ p, b.markOf? x.2 = some p) (instrs : Array Instr) :
    ∃ patched, b.patch branches instrs = .ok patched := by
  induction branches generalizing instrs with
  | nil => exact ⟨instrs, rfl⟩
  | cons x branches ih =>
      obtain ⟨⟨p, hp⟩, hrest⟩ := List.forall_mem_cons.1 h
      rw [patch, hp]
      exact ih hrest _

/-- Patching fails at the first branch whose label is not marked. -/
theorem patch_of_unmarked {before after : List (Nat × Nat)} {j l : Nat}
    (hbefore : ∀ x ∈ before, ∃ p, b.markOf? x.2 = some p) (hl : b.markOf? l = none) (instrs : Array Instr) :
    b.patch (before ++ (j, l) :: after) instrs = .error (.unmarkedLabel b.name l) := by
  induction before generalizing instrs with
  | nil => rw [List.nil_append, patch, hl]
  | cons x before ih =>
      obtain ⟨⟨p, hp⟩, hrest⟩ := List.forall_mem_cons.1 hbefore
      rw [List.cons_append, patch, hp]
      exact ih hrest _

theorem size_patch (h : b.patch branches instrs = .ok patched) : patched.size = instrs.size := by
  induction branches generalizing instrs with
  | nil =>
      cases h
      rfl
  | cons br branches ih =>
      obtain ⟨p, -, hrest⟩ := patch_cons h
      rw [ih hrest, Array.size_modify]

/-- Patching leaves alone what is not at a branch. -/
theorem getElem?_patch_of_ne (h : b.patch branches instrs = .ok patched) {i : Nat}
    (hi : i ∉ branches.map (·.1)) : patched[i]? = instrs[i]? := by
  induction branches generalizing instrs with
  | nil =>
      cases h
      rfl
  | cons br branches ih =>
      obtain ⟨j, l⟩ := br
      obtain ⟨p, -, hrest⟩ := patch_cons h
      rw [List.map_cons, List.mem_cons, not_or] at hi
      rw [ih hrest hi.2, Array.getElem?_modify, if_neg (Ne.symm hi.1)]

/-- Patching gives a branch the position of its label. -/
theorem getElem?_patch_of_mem (h : b.patch branches instrs = .ok patched)
    (hdistinct : (branches.map (·.1)).Nodup) {j l : Nat} (hj : (j, l) ∈ branches) {x : Instr}
    (hx : instrs[j]? = some x) :
    ∃ p, b.markOf? l = some p ∧ patched[j]? = some (retarget (UInt32.ofNat p) x) := by
  induction branches generalizing instrs with
  | nil => cases hj
  | cons br branches ih =>
      obtain ⟨k, m⟩ := br
      obtain ⟨p, hp, hrest⟩ := patch_cons h
      rw [List.map_cons, List.nodup_cons] at hdistinct
      rcases List.mem_cons.1 hj with heq | hj
      · cases heq
        refine ⟨p, hp, ?_⟩
        rw [getElem?_patch_of_ne hrest hdistinct.1, Array.getElem?_modify, if_pos rfl, hx]
        rfl
      · have hne : k ≠ j := by
          rintro rfl
          exact hdistinct.1 (List.mem_map.2 ⟨_, hj, rfl⟩)
        refine ih hrest hdistinct.2 hj ?_
        rw [Array.getElem?_modify, if_neg hne, hx]

end Patch

/-! ## Finished code -/

/-- Whether code has the constants of a builder, and its instructions but for targets. -/
structure Within (b : CodeBuilder) (code : Code) : Prop where
  instrs : ∀ {i : Nat} {x : Instr}, b.instrs[i]? = some x → x.target? = none →
    code.instrs[i]? = some x
  constants : ∀ {i : Nat} {c : Constant}, b.constants[i]? = some c → code.constants[i]? = some c
  size_constants : code.constants.size ≤ maxConstants

section Within

variable {b : CodeBuilder} {code : Code}

/-- Finished code comes from the patched instructions. -/
theorem patched_of_finish (h : b.finish = .ok code) :
    ∃ instrs, b.patch b.branches.reverse b.instrs = .ok instrs ∧
      b.constants.size ≤ maxConstants ∧
      code = ⟨b.name, b.arity, b.locals, instrs, b.constants⟩ := by
  unfold finish at h
  rcases hpatch : b.patch b.branches.reverse b.instrs with fault | instrs
  · rw [hpatch] at h
    cases h
  · rw [hpatch] at h
    change (if maxConstants < b.constants.size then _ else _) = _ at h
    split at h
    · cases h
    next hle =>
      cases h
      exact ⟨instrs, rfl, Nat.le_of_not_lt hle, rfl⟩

/-- A body can be finished if its labels are marked and it has not too many constants. -/
theorem exists_finish (hbranches : ∀ x ∈ b.branches, ∃ p, b.markOf? x.2 = some p)
    (hconstants : b.constants.size ≤ maxConstants) : ∃ code, b.finish = .ok code := by
  obtain ⟨patched, hpatched⟩ := exists_patch (fun x hx => hbranches x (List.mem_reverse.1 hx)) b.instrs
  rw [finish, hpatched]
  exact ⟨_, if_neg (Nat.not_lt.2 hconstants)⟩

/-- A body with too many constants cannot be finished, even if its labels are marked. -/
theorem finish_of_overflow (hbranches : ∀ x ∈ b.branches, ∃ p, b.markOf? x.2 = some p)
    (hconstants : maxConstants < b.constants.size) : b.finish = .error (.constantPoolOverflow b.name) := by
  obtain ⟨patched, hpatched⟩ := exists_patch (fun x hx => hbranches x (List.mem_reverse.1 hx)) b.instrs
  rw [finish, hpatched]
  exact if_pos hconstants

/-- A body cannot be finished if a label is not marked, and the first branch to such a label is reported. -/
theorem finish_of_unmarked {before after : List (Nat × Nat)} {j l : Nat}
    (hbranches : b.branches = after ++ (j, l) :: before) (hbefore : ∀ x ∈ before, ∃ p, b.markOf? x.2 = some p)
    (hl : b.markOf? l = none) : b.finish = .error (.unmarkedLabel b.name l) := by
  have hreverse : b.branches.reverse = before.reverse ++ (j, l) :: after.reverse := by
    rw [hbranches, List.reverse_append, List.reverse_cons, List.append_assoc]
    rfl
  rw [finish, hreverse, patch_of_unmarked (fun x hx => hbefore x (List.mem_reverse.1 hx)) hl]
  rfl

theorem size_of_finish (h : b.finish = .ok code) : code.instrs.size = b.instrs.size := by
  obtain ⟨instrs, hpatch, -, rfl⟩ := patched_of_finish h
  exact size_patch hpatch

/-- Finished code has what its builder holds. -/
theorem within_of_finish (hb : b.WellFormed) (h : b.finish = .ok code) : b.Within code := by
  obtain ⟨instrs, hpatch, hle, rfl⟩ := patched_of_finish h
  refine ⟨fun {i x} hx htarget => ?_, fun hc => hc, hle⟩
  rw [getElem?_patch_of_ne hpatch, hx]
  intro hmem
  rw [List.map_reverse, List.mem_reverse] at hmem
  obtain ⟨⟨j, l⟩, hj, rfl⟩ := List.mem_map.1 hmem
  obtain ⟨y, hy, hne⟩ := hb.branch j l hj
  obtain rfl : x = y := Option.some.inj (hx.symm.trans hy)
  exact hne htarget

/-- Finished code branches to the positions of labels. -/
theorem branch_of_finish (hb : b.WellFormed) (h : b.finish = .ok code) {j l : Nat}
    (hj : (j, l) ∈ b.branches) {x : Instr} (hx : b.instrs[j]? = some x) :
    ∃ p, b.markOf? l = some p ∧ code.instrs[j]? = some (retarget (UInt32.ofNat p) x) := by
  obtain ⟨instrs, hpatch, -, rfl⟩ := patched_of_finish h
  refine getElem?_patch_of_mem hpatch ?_ (List.mem_reverse.2 hj) hx
  rw [List.map_reverse]
  exact List.nodup_reverse.2 hb.distinct

theorem Within.of_continues {b' : CodeBuilder} (h : b'.Within code) (hb : b'.Continues b) :
    b.Within code :=
  ⟨fun hx => h.instrs (hb.instrs hx), fun hc => h.constants (hb.constants hc), h.size_constants⟩

theorem Within.of_emit {i : Instr} (h : (b.emit i).Within code) : b.Within code :=
  h.of_continues ((Continues.refl b).emit i)

theorem Within.of_emitWith {c : Constant} {make : UInt16 → Instr}
    (h : (b.emitWith c make).Within code) : b.Within code :=
  h.of_continues ((Continues.refl b).emitWith c make)

theorem Within.of_emitBranch {make : UInt32 → Instr} {label : Nat}
    (h : (b.emitBranch make label).Within code) : b.Within code :=
  ⟨fun hx => h.instrs (getElem?_push_of_eq_some hx _), h.constants, h.size_constants⟩

theorem Within.size_constants_le (h : b.Within code) : b.constants.size ≤ maxConstants := by
  refine Nat.le_trans (Nat.le_of_not_lt fun hlt => ?_) h.size_constants
  have hc := h.constants (Array.getElem?_eq_getElem hlt)
  have := (Array.getElem?_eq_some_iff.1 hc).1
  omega

/-- An instruction is where the builder was when it was added. -/
theorem Within.emitted {i : Instr} (h : (b.emit i).Within code) (hi : i.target? = none) :
    code.instrs[b.instrs.size]? = some i :=
  h.instrs Array.getElem?_push_size hi

/-- A constant is where the builder was when it was added, and its position fits in a word. -/
theorem Within.emittedWith {c : Constant} {make : UInt16 → Instr}
    (h : (b.emitWith c make).Within code) (hmake : ∀ n, (make n).target? = none) :
    ∃ n : UInt16, code.instrs[b.instrs.size]? = some (make n) ∧
      code.constants[n.toNat]? = some c := by
  have hc : code.constants[b.constants.size]? = some c := h.constants Array.getElem?_push_size
  refine ⟨UInt16.ofNat b.constants.size, h.instrs Array.getElem?_push_size (hmake _), ?_⟩
  have hlt := (Array.getElem?_eq_some_iff.1 hc).1
  have hsize := h.size_constants
  rw [maxConstants] at hsize
  rw [UInt16.toNat_ofNat_of_lt' (Nat.lt_of_lt_of_le hlt (Nat.le_trans hsize (by decide))), hc]

end Within

end Interpose.CodeBuilder
