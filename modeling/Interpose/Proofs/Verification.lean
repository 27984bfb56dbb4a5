import Interpose.Code.Verify

/-!
# What verification finds

The depths that verification keeps are a certificate: the first instruction is reached with an
empty stack, every instruction that has a depth can be executed at it, and all that it leads to has
the depth after it. So whatever control reaches has a depth, and lies within the code.
-/

namespace Interpose.Code

/-! ## Effects of instructions -/

/-- A constant has the effect that it is asked for. -/
theorem constant_eq_ok {code : Code} {c : UInt16} {sort : ConstantSort}
    {effect : Constant → Option StackEffect} {e : StackEffect}
    (h : code.constant c sort effect = .ok e) :
    ∃ k, code.constants[c.toNat]? = some k ∧ effect k = some e := by
  unfold constant at h
  split at h
  · cases h
  next k hk =>
    split at h
    next found hfound =>
      cases h
      exact ⟨k, hk, hfound⟩
    · cases h

theorem constant_of_some {code : Code} {c : UInt16} {sort : ConstantSort}
    {effect : Constant → Option StackEffect} {k : Constant} {e : StackEffect}
    (hk : code.constants[c.toNat]? = some k) (heffect : effect k = some e) :
    code.constant c sort effect = .ok e := by
  rw [constant, hk]
  dsimp only
  rw [heffect]

/-- An instruction takes what is there, and leaves the rest under what it puts. -/
theorem depthAfter_eq_ok {code : Code} {depth after : Nat} {i : Instr}
    (h : code.depthAfter depth i = .ok after) :
    ∃ effect rest, code.stackEffect i = .ok effect ∧ depth = rest + effect.pops ∧
      after = rest + effect.pushes := by
  unfold depthAfter at h
  rcases heffect : code.stackEffect i with fault | effect
  · rw [heffect] at h
    cases h
  · rw [heffect] at h
    simp only [bind, Except.bind] at h
    split at h
    · cases h
    · cases h
      exact ⟨effect, depth - effect.pops, rfl, by omega, rfl⟩

/-! ## The worklist -/

/-- A position has a depth, or waits to be given it. -/
def Awaited (depths : Array (Option Nat)) (waiting : List (Nat × Nat)) (pc depth : Nat) : Prop :=
  depths[pc]? = some (some depth) ∨ (pc, depth) ∈ waiting

/-- An instruction can be executed at a depth, does not exceed the greatest, and leads to positions
of which something is known. -/
def Executable (code : Code) (deepest : Nat) (known : Nat → Nat → Prop) (pc depth : Nat) : Prop :=
  ∃ i after next, code.instrs[pc]? = some i ∧ code.depthAfter depth i = .ok after ∧
    code.reached pc i = .ok next ∧ after ≤ deepest ∧ ∀ p ∈ next, known p after

theorem Executable.mono {code : Code} {deepest deepest' : Nat} {known known' : Nat → Nat → Prop}
    {pc depth : Nat} (h : code.Executable deepest known pc depth) (hle : deepest ≤ deepest')
    (hknown : ∀ p d, known p d → known' p d) : code.Executable deepest' known' pc depth := by
  obtain ⟨i, after, next, hi, hafter, hreached, hdeepest, hnext⟩ := h
  exact ⟨i, after, next, hi, hafter, hreached, Nat.le_trans hdeepest hle,
    fun p hp => hknown _ _ (hnext p hp)⟩

/-- What the worklist keeps true: every instruction that has a depth can be executed at it, and what
it leads to has the depth after it or waits for it. -/
structure Exploring (code : Code) (depths : Array (Option Nat)) (deepest : Nat)
    (waiting : List (Nat × Nat)) : Prop where
  size_eq : depths.size = code.instrs.size
  executable : ∀ pc depth, depths[pc]? = some (some depth) →
    code.Executable deepest (Awaited depths waiting) pc depth

/-- Giving a position its depth keeps those of the others. -/
theorem getElem?_set_depth {depths : Array (Option Nat)} {pc depth : Nat} (h : pc < depths.size)
    (hnone : depths[pc] = none) {p d : Nat} (hp : depths[p]? = some (some d)) :
    (depths.set pc (some depth) h)[p]? = some (some d) := by
  rw [Array.getElem?_set]
  split
  · subst p
    rw [Array.getElem?_eq_getElem h, hnone] at hp
    cases hp
  · exact hp

/-- The worklist runs dry with every position that was known or waited having its depth, and with
nothing left to wait for. -/
theorem explore_spec {code : Code} {depths : Array (Option Nat)} {deepest : Nat}
    {waiting : List (Nat × Nat)} {d : Nat} {final : Array (Option Nat)}
    (hexploring : code.Exploring depths deepest waiting)
    (h : code.explore depths deepest waiting = .ok (d, final)) :
    code.Exploring final d [] ∧ deepest ≤ d ∧
      ∀ pc depth, Awaited depths waiting pc depth → final[pc]? = some (some depth) := by
  fun_induction Code.explore code depths deepest waiting with
  | case1 depths deepest =>
      cases h
      exact ⟨hexploring, Nat.le_refl _, fun pc depth hp => hp.resolve_right (by simp)⟩
  | case2 depths deepest pc rest hpc depth hknown ih =>
      -- the position was met before with this depth, and waits no more
      have hhas : depths[pc]? = some (some depth) := by
        rw [Array.getElem?_eq_getElem hpc, hknown]
      have hdrop (p e : Nat) (hp : Awaited depths ((pc, depth) :: rest) p e) :
          Awaited depths rest p e := by
        rcases hp with hp | hp
        · exact .inl hp
        · rcases List.mem_cons.1 hp with heq | hp
          · cases heq
            exact .inl hhas
          · exact .inr hp
      obtain ⟨hfinal, hle, hall⟩ := ih ⟨hexploring.size_eq, fun p e hp =>
        (hexploring.executable p e hp).mono (Nat.le_refl _) hdrop⟩ h
      exact ⟨hfinal, hle, fun p e hp => hall p e (hdrop p e hp)⟩
  | case3 => cases h
  | case4 => cases h
  | case5 => cases h
  | case6 => cases h
  | case7 depths deepest pc depth rest hpc hnone i hi after hafter next hreached ih =>
      -- the position gets its depth, and what it leads to waits in its place
      have hkeep (p e : Nat) (hp : Awaited depths ((pc, depth) :: rest) p e) :
          Awaited (depths.set pc (some depth) hpc) (next.map (·, after) ++ rest) p e := by
        rcases hp with hp | hp
        · exact .inl (getElem?_set_depth hpc hnone hp)
        · rcases List.mem_cons.1 hp with heq | hp
          · cases heq
            exact .inl (by simp)
          · exact .inr (by simp [hp])
      have hnext : ∀ p ∈ next,
          Awaited (depths.set pc (some depth) hpc) (next.map (·, after) ++ rest) p after :=
        fun p hp => .inr (by simp [hp])
      have hexploring' : code.Exploring (depths.set pc (some depth) hpc) (max deepest after)
          (next.map (·, after) ++ rest) := by
        refine ⟨by simpa using hexploring.size_eq, fun p e hp => ?_⟩
        rw [Array.getElem?_set] at hp
        split at hp
        · cases hp
          subst p
          exact ⟨i, after, next, hi, hafter, hreached, Nat.le_max_right _ _, hnext⟩
        · exact (hexploring.executable p e hp).mono (Nat.le_max_left _ _) hkeep
      obtain ⟨hfinal, hle, hall⟩ := ih hexploring' h
      exact ⟨hfinal, Nat.le_trans (Nat.le_max_left _ _) hle, fun p e hp => hall p e (hkeep p e hp)⟩
  | case8 => cases h

/-- What the depths of code certify. -/
structure Certified (code : Code) (depths : Array (Option Nat)) (deepest : Nat) : Prop where
  start : depths[0]? = some (some 0)
  executable : ∀ pc depth, depths[pc]? = some (some depth) →
    code.Executable deepest (fun p d => depths[p]? = some (some d)) pc depth

/-- Verified code has certified depths, which are those that verification finds. -/
theorem certified_of_verify {code : Code} {deepest : Nat} (h : code.verify = .ok deepest) :
    ∃ depths, code.depths = .ok (deepest, depths) ∧ code.Certified depths deepest := by
  unfold verify at h
  split at h
  · cases h
  next hne =>
    split at h
    next d final hdepths =>
      cases h
      have hstart : code.Exploring (Array.replicate code.instrs.size none) 0 [(0, 0)] := by
        refine ⟨Array.size_replicate, fun pc depth hp => ?_⟩
        rw [Array.getElem?_replicate] at hp
        split at hp <;> cases hp
      obtain ⟨hfinal, _, hall⟩ := explore_spec hstart hdepths
      refine ⟨final, hdepths, hall 0 0 (.inr (by simp)), fun pc depth hp => ?_⟩
      exact (hfinal.executable pc depth hp).mono (Nat.le_refl _)
        fun p e he => he.resolve_right (by simp)
    · cases h

end Interpose.Code
