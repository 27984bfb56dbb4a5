import Mathlib.Logic.Relation
import Mathlib.Order.Bounds.Basic
import Interpose.Proofs.Verification

/-!
# Paths through code

Control comes to a position along paths from the first instruction, with an empty stack there, and each
instruction on the way changes the depth of the stack. Verification accepts code exactly if every
instruction that some path comes to can be executed, at one depth on all paths, and answers with the greatest
depth. The positions that wait to be looked at can be taken in any order: each round looks at one of them, the
rounds come to an end, and they accept or refuse the same code.
-/

namespace Interpose

/-! ## What instructions refer to -/

/-- The sort of a constant. -/
def Constant.sort : Constant → ConstantSort
  | .int _ | .str _ => .literal
  | .field _ => .field
  | .type _ => .type
  | .method _ => .method
  | .ctor _ => .constructor
  | .throwable _ => .throwable

namespace Instr

/-- The local that an instruction refers to. -/
def local? : Instr → Option UInt16
  | .load n | .store n => some n
  | _ => none

/-- The constant that an instruction refers to, with the sort that it must be of. -/
def constant? : Instr → Option (UInt16 × ConstantSort)
  | .const c => some (c, .literal)
  | .getField c | .putField c => some (c, .field)
  | .checkCast c => some (c, .type)
  | .invokeSuper c => some (c, .method)
  | .invokeSuperCtor c => some (c, .constructor)
  | .newThrowable c => some (c, .throwable)
  | _ => none

end Instr

/-- The positions that control can go to from a position. -/
def Successors.positions (pc : Nat) : Successors → List Nat
  | .next => [pc + 1]
  | .branch t => [pc + 1, t.toNat]
  | .jump t => [t.toNat]
  | .none => []

namespace Code

variable {code : Code} {i : Instr}

/-- Whether an instruction refers to what is there: a local and a target within the code, and a constant of the
sort that it must be of. -/
structure Refers (code : Code) (i : Instr) : Prop where
  local_lt : ∀ n, i.local? = some n → n < code.locals
  constant : ∀ c sort, i.constant? = some (c, sort) → ∃ k, code.constants[c.toNat]? = some k ∧ k.sort = sort
  target_lt : ∀ t, i.target? = some t → t.toNat < code.instrs.size

/-- A constant has an effect exactly if it is there and of a sort that has one. -/
theorem constant_isOk_iff {c : UInt16} {sort : ConstantSort} {effect : Constant → Option StackEffect}
    (h : ∀ k, (∃ e, effect k = some e) ↔ k.sort = sort) :
    (∃ e, code.constant c sort effect = .ok e) ↔ ∃ k, code.constants[c.toNat]? = some k ∧ k.sort = sort := by
  constructor
  · rintro ⟨e, he⟩
    obtain ⟨k, hk, heffect⟩ := constant_eq_ok he
    exact ⟨k, hk, (h k).1 ⟨e, heffect⟩⟩
  · rintro ⟨k, hk, hsort⟩
    obtain ⟨e, he⟩ := (h k).2 hsort
    exact ⟨e, constant_of_some hk he⟩

/-- An instruction has an effect on the stack exactly if its local and its constant are there. -/
theorem stackEffect_isOk_iff : (∃ e, code.stackEffect i = .ok e) ↔
    (∀ n, i.local? = some n → n < code.locals) ∧
      ∀ c sort, i.constant? = some (c, sort) → ∃ k, code.constants[c.toNat]? = some k ∧ k.sort = sort := by
  have hconstant (c : UInt16) (sort : ConstantSort) (effect : Constant → Option StackEffect)
      (h : ∀ k, (∃ e, effect k = some e) ↔ k.sort = sort) :
      (∃ e, code.constant c sort effect = .ok e) ↔
        (∀ n, (none : Option UInt16) = some n → n < code.locals) ∧
          ∀ c' sort', some (c, sort) = some (c', sort') →
            ∃ k, code.constants[c'.toNat]? = some k ∧ k.sort = sort' := by
    rw [constant_isOk_iff h]
    simp
  cases i
  case load n | store n =>
    simp only [stackEffect, Instr.local?, Instr.constant?]
    by_cases hn : n < code.locals <;> simp [hn]
  case const c | getField c | putField c | checkCast c | invokeSuper c | invokeSuperCtor c | newThrowable c =>
    exact hconstant c _ _ fun k => by cases k <;> simp [Constant.sort]
  all_goals simp [stackEffect, Instr.local?, Instr.constant?]

/-- The positions that an instruction leads to are looked at if its target is within the code. -/
theorem reached_eq_ok_iff {pc : Nat} {next : List Nat} : code.reached pc i = .ok next ↔
    (∀ t, i.target? = some t → t.toNat < code.instrs.size) ∧ next = i.successors.positions pc := by
  rw [reached, Instr.target?]
  cases i.successors with
  | next | none => simp [Successors.positions, eq_comm]
  | branch t | jump t =>
      by_cases ht : code.instrs.size ≤ t.toNat
      · simp [ht, Nat.not_lt.2 ht]
      · simp [ht, Nat.not_le.1 ht, Successors.positions, eq_comm]

/-! ## Paths -/

/-- Whether control goes from a position, reached with a depth of the stack, to another one with the depth after it:
the instruction there takes from the stack what is there, and leads to the other position. -/
inductive Step (code : Code) : Nat × Nat → Nat × Nat → Prop
  | intro {pc rest next : Nat} {i : Instr} {effect : StackEffect} (hi : code.instrs[pc]? = some i)
      (heffect : code.stackEffect i = .ok effect) (hnext : next ∈ i.successors.positions pc) :
      Step code (pc, rest + effect.pops) (next, rest + effect.pushes)

/-- Whether a path from the first instruction, with an empty stack, comes to a position with a depth. -/
def Visits (code : Code) (pc depth : Nat) : Prop := Relation.ReflTransGen code.Step (0, 0) (pc, depth)

/-- Whether the instruction at a position is within the code, refers to what is there, and takes no more from a
stack of a depth than is there. -/
def Executes (code : Code) (pc depth : Nat) : Prop :=
  ∃ i effect, code.instrs[pc]? = some i ∧ code.Refers i ∧ code.stackEffect i = .ok effect ∧ effect.pops ≤ depth

/-- Whether every path comes only to instructions that can be executed, and to each with one depth. -/
structure Sound (code : Code) : Prop where
  executes : ∀ pc depth, code.Visits pc depth → code.Executes pc depth
  depth_eq : ∀ pc depth depth', code.Visits pc depth → code.Visits pc depth' → depth = depth'

variable {pc depth after deepest : Nat} {next : List Nat}

theorem visits_start (code : Code) : code.Visits 0 0 := .refl

/-- A path goes on to what the instruction leads to that it comes to. -/
theorem Visits.step (h : code.Visits pc depth) (hi : code.instrs[pc]? = some i)
    (hafter : code.depthAfter depth i = .ok after) {p : Nat} (hp : p ∈ i.successors.positions pc) :
    code.Visits p after := by
  obtain ⟨effect, rest, heffect, rfl, rfl⟩ := depthAfter_eq_ok hafter
  exact h.tail (.intro hi heffect hp)

/-- An instruction can be executed exactly if there is a depth after it and its target is within the code. -/
theorem executes_iff : code.Executes pc depth ↔ ∃ i after next, code.instrs[pc]? = some i ∧
    code.depthAfter depth i = .ok after ∧ code.reached pc i = .ok next := by
  constructor
  · rintro ⟨i, effect, hi, hrefers, heffect, hpops⟩
    refine ⟨i, depth - effect.pops + effect.pushes, _, hi, ?_, reached_eq_ok_iff.2 ⟨hrefers.target_lt, rfl⟩⟩
    rw [depthAfter, heffect]
    exact if_neg (Nat.not_lt.2 hpops)
  · rintro ⟨i, after, next, hi, hafter, hreached⟩
    obtain ⟨effect, rest, heffect, rfl, -⟩ := depthAfter_eq_ok hafter
    obtain ⟨hlocal, hconstant⟩ := stackEffect_isOk_iff.1 ⟨effect, heffect⟩
    exact ⟨i, effect, hi, ⟨hlocal, hconstant, (reached_eq_ok_iff.1 hreached).1⟩, heffect, Nat.le_add_left _ _⟩

/-- What leads nowhere puts nothing on the stack. -/
theorem pushes_of_ends {effect : StackEffect} (h : i.successors = .none) (heffect : code.stackEffect i = .ok effect) :
    effect.pushes = 0 := by
  cases i
  case throw | ret | retVoid =>
    cases heffect
    rfl
  all_goals cases h

/-- The depth after an instruction that a path comes to is one that a path comes to, or no greater than before. -/
theorem Visits.exists_or_le (h : code.Visits pc depth) (hi : code.instrs[pc]? = some i)
    (hafter : code.depthAfter depth i = .ok after) : (∃ p, code.Visits p after) ∨ after ≤ depth := by
  cases hsuccessors : i.successors with
  | next => exact .inl ⟨pc + 1, h.step hi hafter (by simp [hsuccessors, Successors.positions])⟩
  | branch t | jump t => exact .inl ⟨t.toNat, h.step hi hafter (by simp [hsuccessors, Successors.positions])⟩
  | none =>
      obtain ⟨effect, rest, heffect, rfl, rfl⟩ := depthAfter_eq_ok hafter
      exact .inr (by rw [pushes_of_ends hsuccessors heffect]; exact Nat.le_add_right _ _)

/-! ## Rounds -/

/-- What is known of code while it is verified: the depth of each position that was looked at, the greatest depth so
far, and the positions that wait with the depths that they are reached with. -/
structure Survey where
  depths : Array (Option Nat)
  deepest : Nat
  waiting : List (Nat × Nat)

/-- What is known at first. -/
def survey (code : Code) : Survey := ⟨Array.replicate code.instrs.size none, 0, [(0, 0)]⟩

/-- What is known after a look at a position that is reached with a depth, or what is wrong there. -/
def look (code : Code) (s : Survey) (pc depth : Nat) : Except (Nat × CodeFault) Survey :=
  match s.depths[pc]? with
  | none => .error (pc, .fallsOffEnd)
  | some (some known) => if known = depth then .ok s else .error (pc, .inconsistentDepth known depth)
  | some none =>
    match code.instrs[pc]? with
    | none => .error (pc, .fallsOffEnd)
    | some i =>
      match code.depthAfter depth i with
      | .error fault => .error (pc, fault)
      | .ok after =>
        match code.reached pc i with
        | .error fault => .error (pc, fault)
        | .ok next =>
          .ok ⟨s.depths.setIfInBounds pc (some depth), max s.deepest after, next.map (·, after) ++ s.waiting⟩

/-- Whether a look at any one of the positions that wait has a result. -/
def Round (code : Code) (s : Survey) (r : Except (Nat × CodeFault) Survey) : Prop :=
  ∃ pc depth rest, s.waiting.Perm ((pc, depth) :: rest) ∧ code.look { s with waiting := rest } pc depth = r

/-- Whether rounds lead from what is known to what is known later. -/
def Rounds (code : Code) : Survey → Survey → Prop := Relation.ReflTransGen fun s s' => code.Round s (.ok s')

variable {s s' : Survey}

/-- The worklist looks at the position that comes first. -/
theorem explore_cons (depths : Array (Option Nat)) (deepest pc depth : Nat) (rest : List (Nat × Nat)) :
    code.explore depths deepest ((pc, depth) :: rest) =
      match code.look ⟨depths, deepest, rest⟩ pc depth with
      | .ok s => code.explore s.depths s.deepest s.waiting
      | .error fault => .error fault := by
  rw [explore, look]
  by_cases hpc : pc < depths.size
  · rw [dif_pos hpc, Array.getElem?_eq_getElem hpc]
    split
    · rename_i known hknown
      simp only [hknown]
      split <;> rfl
    · rename_i hnone
      simp only [hnone]
      cases code.instrs[pc]? with
      | none => rfl
      | some i =>
          dsimp only
          cases code.depthAfter depth i with
          | error fault => rfl
          | ok after =>
              dsimp only
              split
              · rename_i hreached
                simp only [hreached]
              · rename_i hreached
                simp only [hreached, Array.setIfInBounds, dif_pos hpc]
  · rw [dif_neg hpc, Array.getElem?_eq_none (Nat.not_lt.1 hpc)]

/-- A look at a position finds its depth known, or gives it one and puts what it leads to before what waits. -/
theorem look_eq_ok (h : code.look s pc depth = .ok s') :
    s.depths[pc]? = some (some depth) ∧ s' = s ∨
      ∃ i after next, s.depths[pc]? = some none ∧ code.instrs[pc]? = some i ∧
        code.depthAfter depth i = .ok after ∧ code.reached pc i = .ok next ∧
        s' = ⟨s.depths.setIfInBounds pc (some depth), max s.deepest after, next.map (·, after) ++ s.waiting⟩ := by
  rw [look] at h
  split at h
  · cases h
  · rename_i known hknown
    split at h
    · rename_i heq
      cases h
      exact .inl ⟨heq ▸ hknown, rfl⟩
    · cases h
  · rename_i hnone
    split at h
    · cases h
    · rename_i i hi
      split at h
      · cases h
      · rename_i after hafter
        split at h
        · cases h
        · rename_i next hreached
          cases h
          exact .inr ⟨i, after, next, hnone, hi, hafter, hreached, rfl⟩

/-- A look finds something wrong if the position has another depth or the instruction cannot be executed. -/
theorem look_eq_error {fault : Nat × CodeFault} (hsize : s.depths.size = code.instrs.size)
    (h : code.look s pc depth = .error fault) :
    (∃ known, s.depths[pc]? = some (some known) ∧ known ≠ depth) ∨ ¬ code.Executes pc depth := by
  rw [executes_iff]
  rw [look] at h
  split at h
  · rename_i hnone
    refine .inr ?_
    rintro ⟨i, _, _, hi, -⟩
    have hlt := (Array.getElem?_eq_some_iff.1 hi).1
    rw [Array.getElem?_eq_getElem (hsize ▸ hlt)] at hnone
    cases hnone
  · rename_i known hknown
    split at h
    · cases h
    · exact .inl ⟨known, hknown, ‹_›⟩
  · split at h
    · rename_i hnone
      refine .inr ?_
      rintro ⟨i, _, _, hi, -⟩
      cases hnone.symm.trans hi
    · rename_i i hi
      split at h
      · rename_i hafter
        refine .inr ?_
        rintro ⟨j, _, _, hj, hok, -⟩
        obtain rfl : i = j := Option.some.inj (hi.symm.trans hj)
        cases hafter.symm.trans hok
      · split at h
        · rename_i hreached
          refine .inr ?_
          rintro ⟨j, _, _, hj, -, hok⟩
          obtain rfl : i = j := Option.some.inj (hi.symm.trans hj)
          cases hreached.symm.trans hok
        · cases h

/-! ## What rounds keep -/

/-- What every round keeps: whatever has a depth or waits for one is what a path comes to, the start among it, and
can be executed if it has one; the greatest depth so far is that of some of it. -/
structure Tracks (code : Code) (s : Survey) : Prop where
  exploring : code.Exploring s.depths s.deepest s.waiting
  start : Awaited s.depths s.waiting 0 0
  visits : ∀ pc depth, Awaited s.depths s.waiting pc depth → code.Visits pc depth ∧ depth ≤ s.deepest
  deepest : ∃ pc, code.Visits pc s.deepest

theorem tracks_survey (code : Code) : code.Tracks code.survey := by
  have hnone (pc depth : Nat) : code.survey.depths[pc]? ≠ some (some depth) := by
    rw [survey, Array.getElem?_replicate]
    split <;> nofun
  refine ⟨⟨Array.size_replicate, fun pc depth h => absurd h (hnone pc depth)⟩, .inr List.mem_cons_self,
    fun pc depth h => ?_, 0, code.visits_start⟩
  obtain ⟨rfl, rfl⟩ := Prod.mk.inj (List.mem_singleton.1 (h.resolve_left (hnone pc depth)))
  exact ⟨code.visits_start, Nat.le_refl _⟩

/-- What is tracked does not depend on the order in which positions wait. -/
theorem Tracks.perm (h : code.Tracks s) {waiting : List (Nat × Nat)} (hperm : s.waiting.Perm waiting) :
    code.Tracks { s with waiting := waiting } := by
  have hawaited (pc depth : Nat) :
      Awaited s.depths waiting pc depth ↔ Awaited s.depths s.waiting pc depth := or_congr_right hperm.mem_iff.symm
  refine ⟨⟨h.exploring.size_eq, fun pc depth hpc => ?_⟩, (hawaited 0 0).2 h.start,
    fun pc depth hpc => h.visits pc depth ((hawaited pc depth).1 hpc), h.deepest⟩
  exact (h.exploring.executable pc depth hpc).mono (Nat.le_refl _) fun p d => (hawaited p d).2

section

variable {waiting : List (Nat × Nat)} (h : code.Tracks { s with waiting := (pc, depth) :: waiting })
include h

/-- A position that has its depth need not wait. -/
theorem Tracks.drop (hknown : s.depths[pc]? = some (some depth)) : code.Tracks { s with waiting := waiting } := by
  have hdrop (p d : Nat) (hp : Awaited s.depths ((pc, depth) :: waiting) p d) : Awaited s.depths waiting p d := by
    rcases hp with hp | hp
    · exact .inl hp
    · rcases List.mem_cons.1 hp with heq | hp
      · cases heq
        exact .inl hknown
      · exact .inr hp
  refine ⟨⟨h.exploring.size_eq, fun p d hp => ?_⟩, hdrop 0 0 h.start, fun p d hp => ?_, h.deepest⟩
  · exact (h.exploring.executable p d hp).mono (Nat.le_refl _) hdrop
  · exact h.visits p d (hp.imp_right (List.mem_cons_of_mem _))

/-- A position that can be executed gets its depth, and what it leads to waits in its place. -/
theorem Tracks.settle (hnone : s.depths[pc]? = some none) (hi : code.instrs[pc]? = some i)
    (hafter : code.depthAfter depth i = .ok after) (hreached : code.reached pc i = .ok next) :
    code.Tracks ⟨s.depths.setIfInBounds pc (some depth), max s.deepest after, next.map (·, after) ++ waiting⟩ := by
  obtain ⟨hpc, hdepth⟩ := h.visits pc depth (.inr List.mem_cons_self)
  obtain ⟨hlt, hget⟩ := Array.getElem?_eq_some_iff.1 hnone
  have hset : s.depths.setIfInBounds pc (some depth) = s.depths.set pc (some depth) hlt := dif_pos hlt
  obtain ⟨-, rfl⟩ := reached_eq_ok_iff.1 hreached
  rw [hset]
  have hkeep (p d : Nat) (hp : Awaited s.depths ((pc, depth) :: waiting) p d) :
      Awaited (s.depths.set pc (some depth) hlt) ((i.successors.positions pc).map (·, after) ++ waiting) p d := by
    rcases hp with hp | hp
    · exact .inl (getElem?_set_depth hlt hget hp)
    · rcases List.mem_cons.1 hp with heq | hp
      · cases heq
        exact .inl (by simp)
      · exact .inr (List.mem_append_right _ hp)
  have hnext (p : Nat) (hp : p ∈ i.successors.positions pc) :
      Awaited (s.depths.set pc (some depth) hlt) ((i.successors.positions pc).map (·, after) ++ waiting) p after :=
    .inr (List.mem_append_left _ (List.mem_map.2 ⟨p, hp, rfl⟩))
  refine ⟨⟨by simpa using h.exploring.size_eq, fun p d hp => ?_⟩, hkeep 0 0 h.start, fun p d hp => ?_, ?_⟩
  · rw [Array.getElem?_set] at hp
    split at hp
    · cases hp
      subst p
      exact ⟨i, after, _, hi, hafter, hreached, Nat.le_max_right _ _, hnext⟩
    · exact (h.exploring.executable p d hp).mono (Nat.le_max_left _ _) hkeep
  · rcases hp with hp | hp
    · rw [Array.getElem?_set] at hp
      split at hp
      · cases hp
        subst p
        exact ⟨hpc, Nat.le_trans hdepth (Nat.le_max_left _ _)⟩
      · exact (h.visits p d (.inl hp)).imp_right fun hle => Nat.le_trans hle (Nat.le_max_left _ _)
    · rcases List.mem_append.1 hp with hp | hp
      · obtain ⟨q, hq, heq⟩ := List.mem_map.1 hp
        cases heq
        exact ⟨hpc.step hi hafter hq, Nat.le_max_right _ _⟩
      · exact (h.visits p d (.inr (List.mem_cons_of_mem _ hp))).imp_right fun hle =>
          Nat.le_trans hle (Nat.le_max_left _ _)
  · rcases Nat.le_total after s.deepest with hle | hle
    · exact (Nat.max_eq_left hle).symm ▸ h.deepest
    · rcases hpc.exists_or_le hi hafter with hvisits | hle'
      · exact (Nat.max_eq_right hle).symm ▸ hvisits
      · exact (Nat.max_eq_left (Nat.le_trans hle' hdepth)).symm ▸ h.deepest

/-- A look at a position that waits keeps track. -/
theorem Tracks.look (hlook : code.look { s with waiting := waiting } pc depth = .ok s') : code.Tracks s' := by
  rcases look_eq_ok hlook with ⟨hknown, rfl⟩ | ⟨i, after, next, hnone, hi, hafter, hreached, rfl⟩
  · exact h.drop hknown
  · exact h.settle hnone hi hafter hreached

end

theorem Tracks.round (h : code.Tracks s) (hround : code.Round s (.ok s')) : code.Tracks s' := by
  obtain ⟨pc, depth, rest, hperm, hlook⟩ := hround
  exact (h.perm hperm).look hlook

/-- Whatever rounds come to keeps track. -/
theorem tracks_of_rounds (h : code.Rounds code.survey s) : code.Tracks s := by
  induction h with
  | refl => exact tracks_survey code
  | tail _ hround ih => exact ih.round hround

/-- When nothing waits, every path comes to positions at the depths that they have. -/
theorem Tracks.depth_of_visits (h : code.Tracks s) (hdry : s.waiting = []) (hvisits : code.Visits pc depth) :
    s.depths[pc]? = some (some depth) := by
  have hhas {p d : Nat} (hp : Awaited s.depths s.waiting p d) : s.depths[p]? = some (some d) :=
    hp.resolve_right (by simp [hdry])
  -- along the path, whose next place is among those that the instruction before it leads to
  have hpath : Relation.ReflTransGen code.Step (0, 0) (pc, depth) := hvisits
  generalize hplace : (pc, depth) = place at hpath
  clear hvisits
  induction hpath generalizing pc depth with
  | refl =>
      cases hplace
      exact hhas h.start
  | tail _ hstep ih =>
      obtain ⟨hi, heffect, hnext⟩ := hstep
      cases hplace
      obtain ⟨j, after, next, hj, hafter, hreached, -, hall⟩ := h.exploring.executable _ _ (ih rfl)
      obtain rfl := Option.some.inj (hi.symm.trans hj)
      obtain ⟨effect, rest, heffect', hrest, rfl⟩ := depthAfter_eq_ok hafter
      obtain rfl := Except.ok.inj (heffect.symm.trans heffect')
      obtain rfl := Nat.add_right_cancel hrest
      obtain ⟨-, rfl⟩ := reached_eq_ok_iff.1 hreached
      exact hhas (hall _ hnext)

/-- When nothing waits, all paths are sound, and the greatest depth so far is the greatest that they reach. -/
theorem Tracks.sound (h : code.Tracks s) (hdry : s.waiting = []) :
    code.Sound ∧ IsGreatest {depth | ∃ pc, code.Visits pc depth} s.deepest := by
  refine ⟨⟨fun pc depth hpc => ?_, fun pc depth depth' hpc hpc' => ?_⟩, h.deepest, ?_⟩
  · obtain ⟨i, after, next, hi, hafter, hreached, -⟩ := h.exploring.executable pc depth (h.depth_of_visits hdry hpc)
    exact executes_iff.2 ⟨i, after, next, hi, hafter, hreached⟩
  · have heq := (h.depth_of_visits hdry hpc).symm.trans (h.depth_of_visits hdry hpc')
    exact Option.some.inj (Option.some.inj heq)
  · rintro depth ⟨pc, hpc⟩
    exact (h.visits pc depth (.inl (h.depth_of_visits hdry hpc))).2

/-- A round finds something wrong only if some path is not sound. -/
theorem Tracks.not_sound {fault : Nat × CodeFault} (h : code.Tracks s) (hround : code.Round s (.error fault)) :
    ¬ code.Sound := by
  obtain ⟨pc, depth, rest, hperm, hlook⟩ := hround
  have hwaits : Awaited s.depths s.waiting pc depth := .inr (hperm.mem_iff.2 List.mem_cons_self)
  intro hsound
  have hsize : ({ s with waiting := rest } : Survey).depths.size = code.instrs.size := h.exploring.size_eq
  rcases look_eq_error hsize hlook with ⟨known, hknown, hne⟩ | hexecutes
  · exact hne (hsound.depth_eq pc known depth (h.visits pc known (.inl hknown)).1 (h.visits pc depth hwaits).1)
  · exact hexecutes (hsound.executes pc depth (h.visits pc depth hwaits).1)

/-! ## The worklist -/

/-- How much there is left to look at. -/
def Survey.left (s : Survey) : Nat := 3 * unvisited s.depths + s.waiting.length

/-- Every round leaves less to look at. -/
theorem Round.left_lt (h : code.Round s (.ok s')) : s'.left < s.left := by
  obtain ⟨pc, depth, rest, hperm, hlook⟩ := h
  have hlength := hperm.length_eq
  rw [List.length_cons] at hlength
  rcases look_eq_ok hlook with ⟨-, rfl⟩ | ⟨i, after, next, hnone, -, -, hreached, rfl⟩
  · simp only [Survey.left]
    omega
  · obtain ⟨hlt, hget⟩ := Array.getElem?_eq_some_iff.1 hnone
    have hvisit : unvisited (s.depths.set pc (some depth) hlt) + 1 = unvisited s.depths := unvisited_set_lt hlt hget
    have hnext := length_reached_le hreached
    simp only [Survey.left, Array.setIfInBounds, dif_pos hlt, List.length_append, List.length_map]
    omega

/-- Rounds come to an end. -/
theorem wellFounded_round (code : Code) : WellFounded fun s' s => code.Round s (.ok s') :=
  Subrelation.wf Round.left_lt (measure Survey.left).wf

/-- As long as a position waits there is another round. -/
theorem exists_round (h : s.waiting ≠ []) : ∃ r, code.Round s r := by
  obtain ⟨⟨pc, depth⟩, rest, hwaiting⟩ := List.exists_cons_of_ne_nil h
  exact ⟨_, pc, depth, rest, hwaiting ▸ .refl _, rfl⟩

/-- The worklist goes through rounds, until nothing waits or something is wrong. -/
theorem explore_rounds (code : Code) (s : Survey) : ∃ last, code.Rounds s last ∧
    ((last.waiting = [] ∧ code.explore s.depths s.deepest s.waiting = .ok (last.deepest, last.depths)) ∨
      ∃ fault, code.Round last (.error fault) ∧ code.explore s.depths s.deepest s.waiting = .error fault) := by
  induction s using (measure Survey.left).wf.induction with
  | _ s ih =>
      obtain ⟨depths, deepest, waiting⟩ := s
      cases waiting with
      | nil => exact ⟨_, .refl, .inl ⟨rfl, by rw [explore]⟩⟩
      | cons place rest =>
          obtain ⟨pc, depth⟩ := place
          have hround : code.Round ⟨depths, deepest, (pc, depth) :: rest⟩ (code.look ⟨depths, deepest, rest⟩ pc depth) :=
            ⟨pc, depth, rest, .refl _, rfl⟩
          simp only [explore_cons]
          cases hlook : code.look ⟨depths, deepest, rest⟩ pc depth with
          | error fault => exact ⟨_, .refl, .inr ⟨fault, hlook ▸ hround, rfl⟩⟩
          | ok s' =>
              rw [hlook] at hround
              obtain ⟨last, hrounds, hend⟩ := ih s' hround.left_lt
              exact ⟨last, .head hround hrounds, hend⟩

/-- Code is accepted exactly if it has an instruction and the worklist meets nothing wrong. -/
theorem verify_eq_ok_iff {d : Nat} :
    code.verify = .ok d ↔ code.instrs.size ≠ 0 ∧ ∃ depths, code.depths = .ok (d, depths) := by
  rw [verify]
  by_cases hempty : code.instrs.isEmpty = true
  · simp [hempty, Array.isEmpty_iff_size_eq_zero.1 hempty]
  · rw [if_neg hempty]
    have hne : code.instrs.size ≠ 0 := fun h => hempty (Array.isEmpty_iff_size_eq_zero.2 h)
    rcases code.depths with ⟨pc, fault⟩ | ⟨deepest, depths⟩ <;> simp [hne]

/-- Code is accepted exactly if it has an instruction and all paths are sound, with the greatest depth of them. -/
theorem verify_eq_ok_iff_sound {d : Nat} : code.verify = .ok d ↔
    code.instrs.size ≠ 0 ∧ code.Sound ∧ IsGreatest {depth | ∃ pc, code.Visits pc depth} d := by
  rw [verify_eq_ok_iff]
  obtain ⟨last, hrounds, hend⟩ := explore_rounds code code.survey
  have hdepths : code.explore code.survey.depths code.survey.deepest code.survey.waiting = code.depths := rfl
  rw [hdepths] at hend
  obtain ⟨hdry, hdepths⟩ | ⟨fault, hround, hdepths⟩ := hend
  · obtain ⟨hsound, hgreatest⟩ := (tracks_of_rounds hrounds).sound hdry
    have hd : (∃ depths, code.depths = .ok (d, depths)) ↔ last.deepest = d := by simp [hdepths]
    rw [hd]
    exact and_congr_right fun _ => ⟨fun h => ⟨hsound, h ▸ hgreatest⟩, fun h => hgreatest.unique h.2⟩
  · have hunsound := (tracks_of_rounds hrounds).not_sound hround
    simp [hdepths, hunsound]

/-- **Verification.** Code is accepted exactly if it has an instruction, every path comes only to instructions that
can be executed, and to each with one depth; the answer is the greatest depth that a path comes to. The worklist goes
through rounds, which come to an end in whatever order the positions that wait are taken, and any order accepts the same
code with the same answer and refuses the rest. -/
theorem verify_exact (code : Code) :
    (∀ d, code.verify = .ok d ↔
      code.instrs.size ≠ 0 ∧ code.Sound ∧ IsGreatest {depth | ∃ pc, code.Visits pc depth} d) ∧
    (∃ last, code.Rounds code.survey last ∧
      ((last.waiting = [] ∧ code.depths = .ok (last.deepest, last.depths)) ∨
        ∃ fault, code.Round last (.error fault) ∧ code.depths = .error fault)) ∧
    (WellFounded fun s' s => code.Round s (.ok s')) ∧
    ∀ s, code.Rounds code.survey s →
      (s.waiting ≠ [] → ∃ r, code.Round s r) ∧
      (s.waiting = [] → code.verify = .ok s.deepest) ∧
      ∀ fault, code.Round s (.error fault) → ∀ d, code.verify ≠ .ok d := by
  refine ⟨fun d => verify_eq_ok_iff_sound, explore_rounds code code.survey, wellFounded_round code,
    fun s hrounds => ⟨exists_round, fun hdry => ?_, fun fault hround d hok => ?_⟩⟩
  · obtain ⟨hsound, hgreatest⟩ := (tracks_of_rounds hrounds).sound hdry
    obtain ⟨i, _, hi, -⟩ := hsound.executes 0 0 code.visits_start
    have hlt := (Array.getElem?_eq_some_iff.1 hi).1
    exact verify_eq_ok_iff_sound.2 ⟨Nat.ne_of_gt hlt, hsound, hgreatest⟩
  · exact (tracks_of_rounds hrounds).not_sound hround (verify_eq_ok_iff_sound.1 hok).2.1

/-- Code that comes to its last instruction along either way of a branch. -/
def joinCode : Code where
  name := "join"
  arity := 2
  locals := 2
  instrs := #[.load 1, .ifNull 3, .jump 3, .retVoid]
  constants := #[]

/-- The branch is taken before the way that goes on, and the last instruction is known when that comes to it. -/
theorem verify_exact_join :
    joinCode.Rounds joinCode.survey ⟨#[some 0, some 1, some 0, some 0], 1, []⟩ ∧ joinCode.verify = .ok 1 := by
  have hrounds : joinCode.Rounds joinCode.survey ⟨#[some 0, some 1, some 0, some 0], 1, []⟩ := by
    refine .head (b := ⟨#[some 0, none, none, none], 1, [(1, 1)]⟩) ⟨0, 0, _, .refl _, rfl⟩ ?_
    refine .head (b := ⟨#[some 0, some 1, none, none], 1, [(2, 0), (3, 0)]⟩) ⟨1, 1, _, .refl _, rfl⟩ ?_
    refine .head (b := ⟨#[some 0, some 1, none, some 0], 1, [(2, 0)]⟩) ⟨3, 0, _, .swap .., rfl⟩ ?_
    refine .head (b := ⟨#[some 0, some 1, some 0, some 0], 1, [(3, 0)]⟩) ⟨2, 0, _, .refl _, rfl⟩ ?_
    exact .single ⟨3, 0, _, .refl _, rfl⟩
  exact ⟨hrounds, ((verify_exact joinCode).2.2.2 _ hrounds).2.1 rfl⟩

end Code

end Interpose
