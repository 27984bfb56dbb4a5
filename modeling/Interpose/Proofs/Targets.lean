import Interpose.Proofs.Acceptance
import Interpose.Proofs.Building
import Interpose.Proofs.Paths

/-!
# Targets beyond the end of code

Putting code into bytes looks for the offset of every branch target, and there is one for each position up to the
end. So code with a target farther than that is refused, wherever the branch stands; weaving code looks for
nothing. All else that a definition is refused for is asked before a back-end sees its code, and the bytes of code
always decode.
-/

namespace Interpose

/-! ## Branches that stray -/

namespace Code

/-- Whether the instruction at a position branches to farther than the end of the code. -/
def Strays (code : Code) (pc : Nat) (t : UInt32) : Prop :=
  ∃ i, code.instrs[pc]? = some i ∧ i.target? = some t ∧ code.instrs.size < t.toNat

/-- Whether the instruction at a position is the first that branches to farther than the end. -/
structure StraysFirst (code : Code) (pc : Nat) (t : UInt32) : Prop where
  strays : code.Strays pc t
  least : ∀ p u, code.Strays p u → pc ≤ p

/-- The first of a list of instructions that branches to farther than a limit, with the position that it has if the
list begins at another one. -/
def strayFrom? (limit : Nat) : Nat → List Instr → Option (Nat × UInt32)
  | _, [] => none
  | pc, i :: rest =>
    match i.target? with
    | some t => if limit < t.toNat then some (pc, t) else strayFrom? limit (pc + 1) rest
    | none => strayFrom? limit (pc + 1) rest

/-- Checks that no instruction branches to farther than the end. -/
def checkTargets (code : Code) : Except EmitError Unit :=
  match strayFrom? code.instrs.size 0 code.instrs.toList with
  | some (pc, t) => .error (.invalidCode code.name pc (.targetOutOfRange t))
  | none => .ok ()

variable {code : Code} {limit start pc : Nat} {t : UInt32} {instrs : List Instr}

theorem strayFrom?_eq_none_iff : strayFrom? limit start instrs = none ↔
    ∀ i ∈ instrs, ∀ t, i.target? = some t → t.toNat ≤ limit := by
  induction instrs generalizing start with
  | nil => simp [strayFrom?]
  | cons i rest ih =>
      rw [strayFrom?, List.forall_mem_cons]
      cases i.target? with
      | none => simp [ih]
      | some t => by_cases ht : limit < t.toNat <;> simp [ht, ih, Nat.not_lt.1]

/-- What is found is an instruction that branches so, and none before it does. -/
theorem strayFrom?_eq_some (h : strayFrom? limit start instrs = some (pc, t)) :
    ∃ k, pc = start + k ∧ (∃ i, instrs[k]? = some i ∧ i.target? = some t ∧ limit < t.toNat) ∧
      ∀ j < k, ∀ i, instrs[j]? = some i → ∀ u, i.target? = some u → u.toNat ≤ limit := by
  induction instrs generalizing start with
  | nil => cases h
  | cons i rest ih =>
      rw [strayFrom?] at h
      -- either the first instruction branches so, or what is found stands behind it
      have hbehind (hi : ∀ u, i.target? = some u → u.toNat ≤ limit)
          (hrest : strayFrom? limit (start + 1) rest = some (pc, t)) :
          ∃ k, pc = start + k ∧ (∃ j, (i :: rest)[k]? = some j ∧ j.target? = some t ∧ limit < t.toNat) ∧
            ∀ j < k, ∀ m, (i :: rest)[j]? = some m → ∀ u, m.target? = some u → u.toNat ≤ limit := by
        obtain ⟨k, rfl, hfound, hbefore⟩ := ih hrest
        refine ⟨k + 1, by omega, hfound, fun j hj m hm => ?_⟩
        cases j with
        | zero =>
            cases hm
            exact hi
        | succ j => exact hbefore j (by omega) m hm
      split at h
      next u hu =>
        split at h
        next hlt =>
          cases h
          exact ⟨0, rfl, ⟨i, rfl, hu, hlt⟩, fun j hj => absurd hj (Nat.not_lt_zero j)⟩
        next hle => exact hbehind (fun v hv => by cases hu.symm.trans hv; exact Nat.not_lt.1 hle) h
      next hnone => exact hbehind (fun v hv => by cases hnone.symm.trans hv) h

/-- The check passes exactly if nothing strays. -/
theorem checkTargets_eq_ok_iff : code.checkTargets = .ok () ↔ ∀ pc t, ¬ code.Strays pc t := by
  have hnone : code.checkTargets = .ok () ↔ strayFrom? code.instrs.size 0 code.instrs.toList = none := by
    rw [checkTargets]
    split <;> simp [*]
  rw [hnone, strayFrom?_eq_none_iff]
  constructor
  · rintro h pc t ⟨i, hi, ht, hlt⟩
    exact Nat.not_lt.2 (h i (Array.mem_toList_iff.2 (Array.mem_of_getElem? hi)) t ht) hlt
  · intro h i hi t ht
    obtain ⟨pc, hpc, rfl⟩ := Array.mem_iff_getElem.1 (Array.mem_toList_iff.1 hi)
    exact Nat.not_lt.1 fun hlt => h pc t ⟨_, Array.getElem?_eq_getElem hpc, ht, hlt⟩

/-- What the check fails with names the first instruction that strays. -/
theorem exists_straysFirst {fault : EmitError} (h : code.checkTargets = .error fault) :
    ∃ pc t, code.StraysFirst pc t ∧ fault = .invalidCode code.name pc (.targetOutOfRange t) := by
  rw [checkTargets] at h
  split at h
  next pc t hfound =>
    cases h
    obtain ⟨k, hk, ⟨i, hi, ht, hlt⟩, hbefore⟩ := strayFrom?_eq_some hfound
    obtain rfl : pc = k := by omega
    refine ⟨pc, t, ⟨⟨i, by rwa [Array.getElem?_toList] at hi, ht, hlt⟩, ?_⟩, rfl⟩
    rintro p u ⟨j, hj, hu, hltu⟩
    by_contra hp
    exact Nat.not_lt.2 (hbefore p (Nat.not_le.1 hp) j (by rwa [Array.getElem?_toList]) u hu) hltu
  · cases h

/-- No path of verified code comes to an instruction that strays. -/
theorem Strays.not_visits (h : code.Strays pc t) {deepest : Nat} (hverify : code.verify = .ok deepest)
    (depth : Nat) : ¬ code.Visits pc depth := by
  intro hvisits
  obtain ⟨i, hi, ht, hlt⟩ := h
  obtain ⟨j, _, hj, hrefers, -⟩ := (verify_eq_ok_iff_sound.1 hverify).2.1.executes pc depth hvisits
  cases hi.symm.trans hj
  exact Nat.lt_asymm hlt (hrefers.target_lt t ht)

end Code

/-! ## Encoding -/

namespace ByteCode

/-- An instruction can be moved exactly if its target is no farther than the end. -/
theorem relocate_offsets (instrs : List Instr) (i : Instr) :
    (relocate (offsets instrs) i).map (fun _ => ()) =
      match i.target? with
      | some t => if instrs.length < t.toNat then .error (.targetOutOfRange t) else .ok ()
      | none => .ok () := by
  have hoffset (t : UInt32) (make : UInt32 → Instr) :
      (match (offsets instrs)[t.toNat]? with
        | some o => Except.ok (make o)
        | none => .error (CodeFault.targetOutOfRange t)).map (fun _ => ()) =
      if instrs.length < t.toNat then .error (.targetOutOfRange t) else .ok () := by
    split
    next o ho => rw [if_neg (Nat.not_lt.2 (getElem?_offsets.1 ho).1)]; rfl
    next hnone =>
      rw [if_pos]
      · rfl
      · by_contra hle
        rw [getElem?_offsets.2 ⟨Nat.not_lt.1 hle, rfl⟩] at hnone
        cases hnone
  cases i
  case ifNull t | ifNonNull t | jump t => exact hoffset t _
  all_goals rfl

/-- Instructions can be moved up to the first one that branches to farther than the end. -/
theorem relocateFrom_offsets (instrs others : List Instr) (pc : Nat) :
    (relocateFrom (offsets instrs) pc others).map (fun _ => ()) =
      match Code.strayFrom? instrs.length pc others with
      | some (p, t) => .error (p, .targetOutOfRange t)
      | none => .ok () := by
  induction others generalizing pc with
  | nil => rfl
  | cons i rest ih =>
      have hi := relocate_offsets instrs i
      have hrest := ih (pc + 1)
      rw [relocateFrom, Code.strayFrom?]
      cases hmoved : relocate (offsets instrs) i with
      | error fault =>
          rw [hmoved] at hi
          split at hi
          next t ht =>
            split at hi
            next hlt =>
              cases hi
              simp [hlt, Except.map]
            · cases hi
          · cases hi
      | ok moved =>
          rw [hmoved] at hi
          have hskip : (match i.target? with
              | some t => if instrs.length < t.toNat then some (pc, t) else Code.strayFrom? instrs.length (pc + 1) rest
              | none => Code.strayFrom? instrs.length (pc + 1) rest) =
              Code.strayFrom? instrs.length (pc + 1) rest := by
            split at hi
            next t ht =>
              split at hi <;> cases hi
              simp [*]
            · simp [*]
          rw [hskip, ← hrest]
          cases relocateFrom (offsets instrs) (pc + 1) rest <;> rfl

/-- Code can be encoded exactly if it passes the check of its targets, and else fails as that does. -/
theorem encode_checkTargets (code : Code) : (encode code).map (fun _ => ()) = code.checkTargets := by
  have h := relocateFrom_offsets code.instrs.toList code.instrs.toList 0
  rw [encode, Code.checkTargets]
  rw [Array.length_toList] at h
  rcases hmoved : relocateFrom (offsets code.instrs.toList) 0 code.instrs.toList with ⟨p, fault⟩ | moved
  · rw [hmoved] at h
    split at h <;> cases h
    simp [*, Except.map]
  · rw [hmoved] at h
    split at h <;> cases h
    simp [*, Except.map]

end ByteCode

/-! ## Definitions -/

namespace Emitter

/-- What a back-end answers to code. -/
def accepts (e : Emitter) (code : Code) : Except EmitError Unit := (e.image code).map fun _ => ()

/-- What a back-end answers to a definition: the identity of the class, or the error. -/
def verdict (e : Emitter) (w : World) (d : ClassDef) (loader : Loader) : Except EmitError TypeId :=
  (e.define w d loader).map (·.1)

/-- Weaving accepts all code. -/
theorem accepts_weave (verify : Bool) (code : Code) : (⟨.weave, verify⟩ : Emitter).accepts code = .ok () := rfl

/-- Assembling accepts what passes the check of targets. -/
theorem accepts_assembly (verify : Bool) (code : Code) :
    (⟨.assembly, verify⟩ : Emitter).accepts code = code.checkTargets := by
  rw [← ByteCode.encode_checkTargets, accepts, image, ByteCode.assemble_eq_encode]
  cases ByteCode.encode code <;> rfl

/-- Going through a list fails at the first item that fails. -/
theorem mapM_map_unit {α β : Type} (f : α → Except EmitError β) (l : List α) :
    (l.mapM f).map (fun _ => ()) = forM l fun a => (f a).map fun _ => () := by
  induction l with
  | nil => rfl
  | cons a l ih =>
      rw [List.mapM_cons, List.forM_cons, ← ih]
      rcases f a with fault | b
      · rfl
      · cases l.mapM f <;> rfl

/-- Accepting all code of a definition is making its constructors, and then its operations. -/
theorem forM_accepts (e : Emitter) (id : TypeId) (d : ClassDef) :
    forM d.codes e.accepts = (do
      (d.ctors.mapM (e.ctor id d.name)).map fun _ => ()
      (d.methods.mapM (e.method id d.name)).map fun _ => ()) := by
  have hctors := mapM_map_unit (e.ctor id d.name) d.ctors
  have hmethods := mapM_map_unit (e.method id d.name) d.methods
  have hctor (c : CtorDef) : (e.ctor id d.name c).map (fun _ => ()) = e.accepts c.code := by
    rw [ctor, body, accepts]
    cases e.image c.code <;> rfl
  have hmethod (m : MethodDef) : (e.method id d.name m).map (fun _ => ()) = e.accepts m.code := by
    rw [method, body, accepts]
    cases e.image m.code <;> rfl
  simp only [hctor] at hctors
  simp only [hmethod] at hmethods
  rw [hctors, hmethods, ClassDef.codes, List.forM_append, List.forM_map, List.forM_map]

/-- A definition is checked, its code is verified if that is asked for, and then all of it has to be accepted. -/
theorem verdict_eq (e : Emitter) (w : World) (d : ClassDef) (loader : Loader) :
    e.verdict w d loader = (do
      d.validate w.types
      if e.verify then ClassDef.verifyAll d.codes
      forM d.codes e.accepts
      return w.types.fresh) := by
  rw [verdict, define, e.forM_accepts w.types.fresh]
  rcases d.validate w.types with fault | _
  · rfl
  -- what is left is the same on both sides, whether or not code was verified before
  have hrest : ((do
      let ctors ← d.ctors.mapM (e.ctor w.types.fresh d.name)
      let methods ← d.methods.mapM (e.method w.types.fresh d.name)
      return (w.types.fresh, { (record w d.generated).2 with
        types := ⟨w.types.fresh, d.name, .cls, d.modifiers, some d.superclass, d.interfaces, methods, ctors,
          d.fields, loader, (record w d.generated).1⟩ :: (record w d.generated).2.types })) :
        Except EmitError (TypeId × World)).map (·.1) = (do
      (do
        (d.ctors.mapM (e.ctor w.types.fresh d.name)).map fun _ => ()
        (d.methods.mapM (e.method w.types.fresh d.name)).map fun _ => ())
      return w.types.fresh) := by
    rcases d.ctors.mapM (e.ctor w.types.fresh d.name) with fault | ctors
    · rfl
    · rcases d.methods.mapM (e.method w.types.fresh d.name) with fault | methods <;> rfl
  by_cases hverify : e.verify = true
  · simp only [if_pos hverify]
    rcases ClassDef.verifyAll d.codes with fault | _
    · rfl
    · exact hrest
  · simp only [if_neg hverify]
    exact hrest

/-- A list of checks passes exactly if each does. -/
theorem forM_eq_ok_iff {α : Type} {check : α → Except EmitError Unit} {l : List α} :
    forM l check = .ok () ↔ ∀ a ∈ l, check a = .ok () := by
  induction l with
  | nil => simp [pure, Except.pure]
  | cons a l ih =>
      rw [List.forM_cons, bind_eq_ok, List.forall_mem_cons, ← ih]
      exact ⟨fun ⟨_, ha, hl⟩ => ⟨ha, hl⟩, fun ⟨ha, hl⟩ => ⟨(), ha, hl⟩⟩

/-- A list of checks fails with what the first one fails with that does. -/
theorem exists_of_forM_eq_error {α : Type} {check : α → Except EmitError Unit} {l : List α} {fault : EmitError}
    (h : forM l check = .error fault) :
    ∃ before a after, l = before ++ a :: after ∧ check a = .error fault ∧ ∀ b ∈ before, check b = .ok () := by
  induction l with
  | nil => cases h
  | cons a l ih =>
      rw [List.forM_cons] at h
      rcases ha : check a with fault' | _
      · rw [ha] at h
        cases h
        exact ⟨[], a, l, rfl, ha, nofun⟩
      · rw [ha] at h
        obtain ⟨before, b, after, rfl, hb, hbefore⟩ := ih h
        exact ⟨a :: before, b, after, rfl, hb, List.forall_mem_cons.2 ⟨ha, hbefore⟩⟩

variable {verify : Bool} {w : World} {d : ClassDef} {loader : Loader}

/-- The assembling back-end asks one thing more than the weaving one, after all else: that no code strays. -/
theorem verdict_assembly_eq : (⟨.assembly, verify⟩ : Emitter).verdict w d loader = (do
    let id ← (⟨.weave, verify⟩ : Emitter).verdict w d loader
    forM d.codes Code.checkTargets
    return id) := by
  have hwoven (codes : List Code) : forM codes (fun _ => Except.ok ()) = (Except.ok () : Except EmitError Unit) :=
    forM_eq_ok_iff.2 fun _ _ => rfl
  rw [verdict_eq, verdict_eq, funext (accepts_assembly verify), funext (accepts_weave verify), hwoven]
  rcases d.validate w.types with fault | _
  · rfl
  cases verify
  · rfl
  · rcases ClassDef.verifyAll d.codes with fault | _ <;> rfl

/-- Definitions that are accepted with verification have verified code. -/
theorem exists_verify_of_verdict {id : TypeId} (h : (⟨.weave, true⟩ : Emitter).verdict w d loader = .ok id) {c : Code}
    (hc : c ∈ d.codes) : ∃ deepest, c.verify = .ok deepest := by
  obtain ⟨⟨_, w'⟩, hdefine, -⟩ := map_eq_ok.1 h
  obtain ⟨t, _, hdefines, -⟩ := defines_of_define hdefine
  exact (hdefines.takes c hc).1 rfl

/-- **Agreement on definitions.** The assembling back-end answers what the weaving one does, unless that accepts a
definition with code that branches to farther than its end; then it refuses the definition and names the first such
instruction of the first such code. So the back-ends agree on a definition exactly if the weaving one refuses it or no
code of it strays. If code is verified, no path comes to what they disagree about. -/
theorem verdict_assembly_eq_weave_iff (verify : Bool) (w : World) (d : ClassDef) (loader : Loader) :
    ((⟨.assembly, verify⟩ : Emitter).verdict w d loader = (⟨.weave, verify⟩ : Emitter).verdict w d loader ↔
      (∃ fault, (⟨.weave, verify⟩ : Emitter).verdict w d loader = .error fault) ∨
        ∀ c ∈ d.codes, ∀ pc t, ¬ c.Strays pc t) ∧
    ((⟨.assembly, verify⟩ : Emitter).verdict w d loader ≠ (⟨.weave, verify⟩ : Emitter).verdict w d loader →
      ∃ id before c after pc t, (⟨.weave, verify⟩ : Emitter).verdict w d loader = .ok id ∧
        d.codes = before ++ c :: after ∧ (∀ b ∈ before, ∀ p u, ¬ b.Strays p u) ∧ c.StraysFirst pc t ∧
        (⟨.assembly, verify⟩ : Emitter).verdict w d loader =
          .error (.invalidCode c.name pc (.targetOutOfRange t)) ∧
        (verify = true → ∀ c ∈ d.codes, ∀ p u, c.Strays p u → ∀ depth, ¬ c.Visits p depth)) := by
  rw [verdict_assembly_eq]
  rcases hweave : (⟨.weave, verify⟩ : Emitter).verdict w d loader with fault | id
  · exact ⟨iff_of_true rfl (.inl ⟨fault, rfl⟩), fun h => absurd rfl h⟩
  rcases hcheck : forM d.codes Code.checkTargets with fault | _
  · obtain ⟨before, c, after, hcodes, hc, hbefore⟩ := exists_of_forM_eq_error hcheck
    obtain ⟨pc, t, hfirst, rfl⟩ := Code.exists_straysFirst hc
    refine ⟨iff_of_false nofun ?_, fun _ => ⟨id, before, c, after, pc, t, rfl, hcodes,
      fun b hb => Code.checkTargets_eq_ok_iff.1 (hbefore b hb), hfirst, rfl, fun hverify b hb p u hstrays => ?_⟩⟩
    · rintro (⟨fault, hfault⟩ | hnone)
      · cases hfault
      · exact hnone c (hcodes ▸ by simp) pc t hfirst.strays
    · subst hverify
      obtain ⟨deepest, hdeepest⟩ := exists_verify_of_verdict hweave hb
      exact hstrays.not_visits hdeepest
  · have hall := forM_eq_ok_iff.1 hcheck
    exact ⟨iff_of_true rfl (.inr fun c hc => Code.checkTargets_eq_ok_iff.1 (hall c hc)), fun h => absurd rfl h⟩

/-- Code that returns, with a branch behind that to farther than its end. -/
def strayCode : Code where
  name := "app.Stray.run()V"
  arity := 1
  locals := 1
  instrs := #[.retVoid, .jump 7]
  constants := #[]

/-- A class with a method of that code. -/
def strayDef : ClassDef where
  name := "app.Stray"
  modifiers := .public
  superclass := .root
  interfaces := []
  fields := []
  ctors := []
  methods := [⟨"run", [], .void, .public, strayCode⟩]
  generated := none

/-- One back-end accepts a definition, with verification, that the other refuses. -/
theorem verdict_differs :
    ((⟨.weave, true⟩ : Emitter).verdict (.initial {}) strayDef .system).isOk = true ∧
      (⟨.assembly, true⟩ : Emitter).verdict (.initial {}) strayDef .system =
        .error (.invalidCode "app.Stray.run()V" 1 (.targetOutOfRange 7)) := by
  have hverify : ClassDef.verifyAll strayDef.codes = .ok () := by decide +kernel
  have hvalid : strayDef.validate (World.initial {}).types = .ok () := by decide +kernel
  rw [verdict_eq, verdict_eq, hvalid]
  simp only [if_pos, hverify]
  exact ⟨rfl, rfl⟩

end Emitter

end Interpose
