import Interpose.Generate.Definition
import Interpose.Proofs.ByteCode
import Interpose.Proofs.Verification

/-!
# Code that is accepted

Code is accepted if a depth can be told for each of its positions, so that every instruction can be executed
at its depth and leads only further on, to positions of the depth after it. Then the worklist never meets a
fault, and all branch targets lie within the code, so that it can be encoded.
-/

namespace Interpose

namespace Code

variable {code : Code} {pc depth limit : Nat}

/-- Whether control that reaches a position at a depth stays before another one, and goes on until it
ends. -/
inductive Leads (code : Code) : Nat → Nat → Nat → Prop
  | stop {pc depth after : Nat} {i : Instr} (hinstr : code.instrs[pc]? = some i)
      (hends : i.successors = .none) (hafter : code.depthAfter depth i = .ok after) :
      Leads code pc depth (pc + 1)
  | next {pc depth after limit : Nat} {i : Instr} (hinstr : code.instrs[pc]? = some i)
      (hnext : i.successors = .next) (hafter : code.depthAfter depth i = .ok after)
      (hrest : Leads code (pc + 1) after limit) : Leads code pc depth limit
  | branch {pc depth after limit : Nat} {i : Instr} {t : UInt32} (hinstr : code.instrs[pc]? = some i)
      (hbranch : i.successors = .branch t) (hafter : code.depthAfter depth i = .ok after)
      (hfalls : Leads code (pc + 1) after t.toNat) (hjumps : Leads code t.toNat after limit) :
      Leads code pc depth limit

/-- Whether the instruction at a position can be executed at the depth told for it, and leads to positions
before another one of the depth after it. -/
def Stays (code : Code) (depths : Nat → Nat) (limit pc : Nat) : Prop :=
  ∃ i after next, code.instrs[pc]? = some i ∧ code.depthAfter (depths pc) i = .ok after ∧
    code.reached pc i = .ok next ∧ ∀ q ∈ next, pc < q ∧ q < limit ∧ depths q = after

/-- What is told of a position concerns only that one and those further on. -/
theorem Stays.congr {depths depths' : Nat → Nat} (h : code.Stays depths limit pc)
    (hsame : ∀ q, pc ≤ q → q < limit → depths' q = depths q) (hpc : pc < limit) :
    code.Stays depths' limit pc := by
  obtain ⟨i, after, next, hinstr, hafter, hreached, hall⟩ := h
  refine ⟨i, after, next, hinstr, (hsame pc (Nat.le_refl _) hpc).symm ▸ hafter, hreached, fun q hq => ?_⟩
  obtain ⟨hlt, hlimit, hdepth⟩ := hall q hq
  exact ⟨hlt, hlimit, (hsame q (Nat.le_of_lt hlt) hlimit).trans hdepth⟩

theorem Stays.mono {depths : Nat → Nat} {limit' : Nat} (h : code.Stays depths limit pc)
    (hle : limit ≤ limit') : code.Stays depths limit' pc := by
  obtain ⟨i, after, next, hinstr, hafter, hreached, hall⟩ := h
  refine ⟨i, after, next, hinstr, hafter, hreached, fun q hq => ?_⟩
  obtain ⟨hlt, hlimit, hdepth⟩ := hall q hq
  exact ⟨hlt, Nat.lt_of_lt_of_le hlimit hle, hdepth⟩

theorem Leads.lt (h : code.Leads pc depth limit) : pc < limit := by
  induction h with
  | stop => exact Nat.lt_succ_self _
  | next _ _ _ _ ih => exact Nat.lt_of_succ_lt ih
  | branch _ _ _ _ _ ihfalls ihjumps => exact Nat.lt_trans (Nat.lt_of_succ_lt ihfalls) ihjumps

theorem Leads.lt_size (h : code.Leads pc depth limit) : pc < code.instrs.size := by
  cases h with
  | stop hinstr | next hinstr | branch hinstr => exact (Array.getElem?_eq_some_iff.1 hinstr).1

/-- Control that stays before a position has a depth at each position that it can reach. -/
theorem Leads.exists_depths (h : code.Leads pc depth limit) :
    ∃ depths : Nat → Nat, depths pc = depth ∧ ∀ p, pc ≤ p → p < limit → code.Stays depths limit p := by
  induction h with
  | @stop pc depth after i hinstr hends hafter =>
      refine ⟨fun _ => depth, rfl, fun p hle hlt => ?_⟩
      obtain rfl : p = pc := by omega
      exact ⟨i, after, [], hinstr, hafter, by rw [reached, hends], nofun⟩
  | @next pc depth after limit i hinstr hnext hafter hrest ih =>
      obtain ⟨depths, hstart, hall⟩ := ih
      have hself : (fun p => if p = pc then depth else depths p) pc = depth := if_pos rfl
      refine ⟨fun p => if p = pc then depth else depths p, hself, fun p hle hlt => ?_⟩
      rcases Nat.eq_or_lt_of_le hle with rfl | hpc
      · refine ⟨i, after, [pc + 1], hinstr, by rwa [hself], by rw [reached, hnext], fun q hq => ?_⟩
        obtain rfl := List.mem_singleton.1 hq
        exact ⟨Nat.lt_succ_self _, hrest.lt, (if_neg (by omega)).trans hstart⟩
      · refine (hall p hpc hlt).congr (fun q hq _ => if_neg (by omega)) hlt
  | @branch pc depth after limit i t hinstr hbranch hafter hfalls hjumps ihfalls ihjumps =>
      obtain ⟨before, hbstart, hbefore⟩ := ihfalls
      obtain ⟨behind, hhstart, hbehind⟩ := ihjumps
      have hfallsLt := hfalls.lt
      have hjumpsLt := hjumps.lt
      -- what comes before the target falls through, and what comes behind is branched to
      have hself : (fun p => if p = pc then depth else if p < t.toNat then before p else behind p) pc =
          depth := if_pos rfl
      refine ⟨fun p => if p = pc then depth else if p < t.toNat then before p else behind p, hself,
        fun p hle hlt => ?_⟩
      rcases Nat.eq_or_lt_of_le hle with rfl | hpc
      · have hreached : code.reached pc i = .ok [pc + 1, t.toNat] := by
          rw [reached, hbranch]
          exact if_neg (Nat.not_le.2 hjumps.lt_size)
        refine ⟨i, after, _, hinstr, by rwa [hself], hreached, fun q hq => ?_⟩
        rcases List.mem_cons.1 hq with rfl | hq
        · exact ⟨Nat.lt_succ_self _, by omega,
            (if_neg (by omega)).trans ((if_pos (by omega)).trans hbstart)⟩
        · obtain rfl := List.mem_singleton.1 hq
          exact ⟨by omega, by omega, (if_neg (by omega)).trans ((if_neg (by omega)).trans hhstart)⟩
      · rcases Nat.lt_or_ge p t.toNat with hp | hp
        · refine ((hbefore p hpc hp).congr (fun q hq hqt => ?_) hp).mono (Nat.le_of_lt hjumpsLt)
          exact (if_neg (by omega)).trans (if_pos hqt)
        · refine (hbehind p hp hlt).congr (fun q hq _ => ?_) hlt
          exact (if_neg (by omega)).trans (if_neg (by omega))

/-! ## The worklist -/

/-- While what is known and what waits are depths that are told, the worklist meets no fault. -/
theorem exists_explore {told : Nat → Nat} (htold : ∀ p < limit, code.Stays told limit p)
    {depths : Array (Option Nat)} {deepest : Nat} {waiting : List (Nat × Nat)}
    (hwaiting : ∀ x ∈ waiting, x.1 < limit ∧ x.2 = told x.1)
    (hdepths : ∀ p d, depths[p]? = some (some d) → d = told p) (hsize : depths.size = code.instrs.size) :
    ∃ r, code.explore depths deepest waiting = .ok r := by
  fun_induction Code.explore code depths deepest waiting with
  | case1 depths deepest => exact ⟨_, rfl⟩
  | case2 depths deepest pc rest hpc depth hknown ih =>
      exact ih (fun x hx => hwaiting x (List.mem_cons_of_mem _ hx)) hdepths hsize
  | case3 depths deepest pc depth rest hpc known hknown hne =>
      have hknown' := hdepths pc known (by rw [Array.getElem?_eq_getElem hpc, hknown])
      exact absurd (hknown'.trans (hwaiting _ List.mem_cons_self).2.symm) hne
  | case4 depths deepest pc depth rest hpc hnone hinstr =>
      obtain ⟨i, _, _, hi, -⟩ := htold pc (hwaiting _ List.mem_cons_self).1
      rw [hinstr] at hi
      cases hi
  | case5 depths deepest pc depth rest hpc hnone i hinstr fault hafter =>
      obtain ⟨hlt, hdepth⟩ := hwaiting _ List.mem_cons_self
      obtain ⟨_, _, _, hi, hok, -⟩ := htold pc hlt
      rw [hinstr] at hi
      cases hi
      rw [← hdepth, hafter] at hok
      cases hok
  | case6 depths deepest pc depth rest hpc hnone i hinstr after hafter fault hreached =>
      obtain ⟨_, _, _, hi, -, hok, -⟩ := htold pc (hwaiting _ List.mem_cons_self).1
      rw [hinstr] at hi
      cases hi
      rw [hreached] at hok
      cases hok
  | case7 depths deepest pc depth rest hpc hnone i hinstr after hafter next hreached ih =>
      obtain ⟨hlt, hdepth⟩ := hwaiting _ List.mem_cons_self
      obtain ⟨_, _, _, hi, hok, hreached', hall⟩ := htold pc hlt
      rw [hinstr] at hi
      cases hi
      rw [← hdepth, hafter] at hok
      cases hok
      rw [hreached] at hreached'
      cases hreached'
      refine ih (fun x hx => ?_) (fun p d hp => ?_) ((Array.size_set ..).trans hsize)
      · rcases List.mem_append.1 hx with hx | hx
        · obtain ⟨q, hq, rfl⟩ := List.mem_map.1 hx
          obtain ⟨-, hqlt, hqdepth⟩ := hall q hq
          exact ⟨hqlt, hqdepth.symm⟩
        · exact hwaiting x (List.mem_cons_of_mem _ hx)
      · rw [Array.getElem?_set] at hp
        split at hp
        · rename_i heq
          cases hp
          exact heq ▸ hdepth
        · exact hdepths p d hp
  | case8 depths deepest pc depth rest hpc =>
      obtain ⟨_, _, _, hi, -⟩ := htold pc (hwaiting _ List.mem_cons_self).1
      exact absurd (hsize ▸ (Array.getElem?_eq_some_iff.1 hi).1) hpc

/-- Code is verified if control stays within it. -/
theorem Leads.exists_verify (h : code.Leads 0 0 limit) : ∃ deepest, code.verify = .ok deepest := by
  obtain ⟨told, hstart, htold⟩ := h.exists_depths
  have hexplore : ∃ r, code.explore (Array.replicate code.instrs.size none) 0 [(0, 0)] = .ok r := by
    refine exists_explore (fun p hp => htold p (Nat.zero_le _) hp) (fun x hx => ?_) (fun p d hp => ?_)
      Array.size_replicate
    · obtain rfl := List.mem_singleton.1 hx
      exact ⟨h.lt, hstart.symm⟩
    · rw [Array.getElem?_replicate] at hp
      split at hp <;> cases hp
  obtain ⟨⟨deepest, depths⟩, hr⟩ := hexplore
  have hne : code.instrs.isEmpty = false := by
    have hlt := h.lt_size
    rw [Array.isEmpty, decide_eq_false_iff_not]
    omega
  refine ⟨deepest, ?_⟩
  rw [verify, hne, Code.depths, hr]
  rfl

end Code

namespace ByteCode

variable {code : Code} {table : Array UInt32}

/-- Instructions can be moved if each of them can. -/
theorem exists_relocateFrom {instrs : List Instr} (h : ∀ i ∈ instrs, ∃ j, relocate table i = .ok j)
    (pc : Nat) : ∃ moved, relocateFrom table pc instrs = .ok moved := by
  induction instrs generalizing pc with
  | nil => exact ⟨[], rfl⟩
  | cons i instrs ih =>
      obtain ⟨⟨j, hj⟩, hrest⟩ := List.forall_mem_cons.1 h
      obtain ⟨moved, hmoved⟩ := ih hrest (pc + 1)
      exact ⟨j :: moved, by rw [relocateFrom, hj, hmoved]⟩

/-- An instruction can be moved if its target, if it has one, has an offset. -/
theorem exists_relocate {i : Instr} (h : ∀ t, i.target? = some t → ∃ o, table[t.toNat]? = some o) :
    ∃ j, relocate table i = .ok j := by
  cases i
  case ifNull t | ifNonNull t | jump t =>
    obtain ⟨o, ho⟩ := h t rfl
    simp only [relocate, ho]
    exact ⟨_, rfl⟩
  all_goals exact ⟨_, rfl⟩

/-- Code can be encoded if its targets lie within it. -/
theorem exists_encode (h : ∀ i ∈ code.instrs, ∀ t, i.target? = some t → t.toNat ≤ code.instrs.size) :
    ∃ bytes, encode code = .ok bytes := by
  have hrelocate : ∀ i ∈ code.instrs.toList, ∃ j, relocate (offsets code.instrs.toList) i = .ok j :=
    fun i hi => exists_relocate fun t ht =>
      ⟨_, getElem?_offsets.2 ⟨h i (Array.mem_toList_iff.1 hi) t ht, rfl⟩⟩
  obtain ⟨moved, hmoved⟩ := exists_relocateFrom hrelocate 0
  exact ⟨_, by rw [encode, hmoved]⟩

end ByteCode

/-! ## What definitions take -/

/-- Whether code is verified, if that is asked for, and a back-end makes a body of it. -/
def Emitter.Takes (e : Emitter) (c : Code) : Prop :=
  (e.verify = true → ∃ deepest, c.verify = .ok deepest) ∧ ∃ image, e.image c = .ok image

/-- Code that control stays within to its end is taken by every emitter. -/
theorem Emitter.takes_of_leads {code : Code} (h : code.Leads 0 0 code.instrs.size) (e : Emitter) :
    e.Takes code := by
  refine ⟨fun _ => h.exists_verify, ?_⟩
  rw [image]
  cases e.backend with
  | weave => exact ⟨_, rfl⟩
  | assembly =>
      obtain ⟨told, -, htold⟩ := h.exists_depths
      have htargets : ∀ i ∈ code.instrs, ∀ t, i.target? = some t → t.toNat ≤ code.instrs.size := by
        intro i hi t ht
        obtain ⟨pc, hlt, rfl⟩ := Array.mem_iff_getElem.1 hi
        obtain ⟨j, after, next, hj, -, hreached, -⟩ := htold pc (Nat.zero_le _) hlt
        rw [Array.getElem?_eq_getElem hlt] at hj
        cases hj
        rw [Instr.target?] at ht
        rw [Code.reached] at hreached
        split at ht
        all_goals
          rename_i hsuccessors
          rw [hsuccessors] at hreached
        · cases ht
          dsimp only at hreached
          split at hreached
          · cases hreached
          · exact Nat.le_of_lt (Nat.not_le.1 ‹_›)
        · cases ht
          dsimp only at hreached
          split at hreached
          · cases hreached
          · exact Nat.le_of_lt (Nat.not_le.1 ‹_›)
        · cases ht
        · cases ht
      obtain ⟨bytes, hbytes⟩ := ByteCode.exists_encode htargets
      exact ⟨.assembled bytes, by rw [ByteCode.assemble_eq_encode, hbytes]; rfl⟩

end Interpose
