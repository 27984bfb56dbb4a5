import Interpose.Generate.Definition
import Interpose.Generate.Root
import Interpose.Proofs.Frames
import Interpose.Proofs.Traces
import Interpose.Proofs.Verification
import Mathlib.Data.List.Forall2

/-!
# The back-ends agree

Both back-ends make a body of the same code, and the bodies run in lock-step: whatever number of
instructions they have executed, those were the same but for their targets, the frame and the world
were the same before each, and so was the call that it made. Verification keeps control within the
code, which is where an image presents instructions.
-/

namespace Interpose

open Interpose.Action (Yields)

/-! ## Control stays within verified code -/

/-- Whether control can be in a state: it is past the end, or its position has a depth. -/
def CompiledBody.State.Within (depths : Array (Option Nat)) : CompiledBody.State → Prop
  | .at pc _ => ∃ depth, depths[pc]? = some (some depth)
  | .returned _ => True

section Within

variable {code : Code} {depths : Array (Option Nat)} {deepest : Nat}

/-- Where an instruction leads is among what verification looks at next. -/
theorem Flow.Follows.mem_reached {i : Instr} {flow : Flow} (hflow : flow.Follows i) {pc : Nat}
    {next : List Nat} (hreached : code.reached pc i = .ok next) {p : Nat} {f : Frame}
    (hstate : flow.state pc = .at p f) : p ∈ next := by
  cases flow with
  | next f =>
      cases hstate
      rcases hflow with h | ⟨t, h⟩
      · simp only [Code.reached, h] at hreached
        cases hreached
        simp
      · simp only [Code.reached, h] at hreached
        split at hreached
        · cases hreached
        · cases hreached
          simp
  | jump t f =>
      cases hstate
      rcases hflow with h | h
      all_goals
        simp only [Code.reached, h] at hreached
        split at hreached
        · cases hreached
        · cases hreached
          simp
  | ret v => cases hstate

/-- An instruction leads from a position that has a depth to one that has a depth. -/
theorem Flow.Follows.within {i : Instr} {flow : Flow} (hflow : flow.Follows i)
    (hcertified : code.Certified depths deepest) {pc depth : Nat}
    (hpc : depths[pc]? = some (some depth)) (hi : code.instrs[pc]? = some i) :
    (flow.state pc).Within depths := by
  obtain ⟨j, after, next, hj, _, hreached, _, hnext⟩ := hcertified.executable pc depth hpc
  obtain rfl : i = j := Option.some.inj (hi.symm.trans hj)
  rcases hstate : flow.state pc with ⟨p, f⟩ | v
  · exact ⟨after, hnext p (hflow.mem_reached hreached hstate)⟩
  · trivial

end Within

/-- Whether an instruction of a run from an image is that of a run by positions, and everything else
about the two moments the same. -/
structure Moment.Presents (place : Nat → Nat) (m woven : Moment) : Prop where
  instr : ByteCode.Relocated (fun t o => o.toNat = place t.toNat) woven.instr m.instr
  frame : m.frame = woven.frame
  world : m.world = woven.world
  call : m.call = woven.call

namespace CompiledBody

/-! ## Images -/

/-- A body run from another image. -/
def recast (unit : CompiledBody) (image : Image) : CompiledBody := { unit with image := image }

section Over

variable (unit : CompiledBody) (image : Image)

theorem Realizes.recast_eq {unit : CompiledBody} {owner : TypeId} {code : Code} {place : Nat → Nat}
    (h : unit.Realizes owner code place) (image : Image) :
    unit.recast image = ⟨code.name, owner, code.locals, code.constants, image⟩ := by
  rw [recast, h.name, h.owner, h.locals, h.constants]

theorem step_recast (run : Runner) (f : Frame) (i : Instr) :
    (unit.recast image).step run f i = unit.step run f i := by
  cases i <;> rfl

/-- What an instruction calls does not depend on where it leads. -/
theorem call?_relocated {R : UInt32 → UInt32 → Prop} {i moved : Instr}
    (h : ByteCode.Relocated R i moved) {f : Frame} {w : World} :
    unit.call? f w moved = unit.call? f w i := by
  cases h <;> rfl

theorem call?_recast (f : Frame) (w : World) (i : Instr) :
    (unit.recast image).call? f w i = unit.call? f w i := by
  cases i <;> rfl

end Over

theorem State.placed_id (s : State) : s.placed id = s := by
  cases s <;> rfl

theorem advance_woven (unit : CompiledBody) {instrs : Array Instr} {pc : Nat} {i : Instr}
    (hi : instrs[pc]? = some i) (run : Runner) (f : Frame) :
    (unit.recast (.woven instrs)).advance run pc f =
      unit.step run f i >>= fun flow => pure (flow.state pc) := by
  have hpresents : (unit.recast (.woven instrs)).image.Presents instrs id := Image.presents_woven instrs
  have h := advance_of_presents hpresents run hi f
  simp only [State.placed_id, id, step_recast] at h
  exact h

/-! ## Lock-step -/

variable {unit : CompiledBody} {code : Code} {depths : Array (Option Nat)} {deepest : Nat}
  {place : Nat → Nat}

/-- From a position that has a depth, one instruction leads to another one or past the end, wherever
it was fetched from. -/
theorem step_within (hcertified : code.Certified depths deepest) (run : Runner) {pc depth : Nat}
    (hpc : depths[pc]? = some (some depth)) {i : Instr} (hi : code.instrs[pc]? = some i)
    (f : Frame) : Yields (unit.step run f i) fun flow => (flow.state pc).Within depths :=
  fun w flow w' h => (step_follows unit run f i w flow w' h).within hcertified hpc hi

/-- After any number of instructions an image is at the place of where the positions are. -/
theorem after_of_presents (hcertified : code.Certified depths deepest)
    (hpresents : unit.image.Presents code.instrs place) (run : Runner) (n : Nat) {s : State}
    (hs : s.Within depths) :
    unit.after run n (s.placed place) =
      (unit.recast (.woven code.instrs)).after run n s >>= fun s => pure (s.placed place) := by
  induction n generalizing s with
  | zero => rfl
  | succ n ih =>
      cases s with
      | returned v => rfl
      | «at» pc f =>
          obtain ⟨depth, hpc⟩ := hs
          obtain ⟨i, _, _, hi, -⟩ := hcertified.executable pc depth hpc
          simp only [State.placed, after]
          rw [advance_of_presents hpresents run hi f, advance_woven unit hi run f]
          simp only [bind_assoc, pure_bind]
          exact (step_within hcertified run hpc hi f).bind_congr fun flow hflow => ih hflow

/-- An image and the positions execute the same instructions, at the same frames and worlds and with
the same calls. -/
theorem trace_of_presents (hcertified : code.Certified depths deepest)
    (hpresents : unit.image.Presents code.instrs place) (run : Runner) (n : Nat) {s : State}
    (hs : s.Within depths) (w : World) :
    List.Forall₂ (Moment.Presents place) (unit.trace run n (s.placed place) w)
      ((unit.recast (.woven code.instrs)).trace run n s w) := by
  induction n generalizing s w with
  | zero => exact .nil
  | succ n ih =>
      cases s with
      | returned v => exact .nil
      | «at» pc f =>
          obtain ⟨depth, hpc⟩ := hs
          obtain ⟨i, _, _, hi, -⟩ := hcertified.executable pc depth hpc
          obtain ⟨moved, hmoved, hfetch⟩ := hpresents.fetch hi
          have hwovenFetch : (unit.recast (.woven code.instrs)).image.fetch? pc = some (i, pc + 1) := by
            simp [recast, Image.fetch?, hi]
          rw [State.placed, trace, trace, hfetch, hwovenFetch]
          -- one moment on each side, and what follows it in the world that the step leaves
          refine .cons ⟨hmoved, rfl, rfl, ?_⟩ ?_
          · rw [call?_recast]
            exact unit.call?_relocated hmoved
          rw [advance_of_presents hpresents run hi f, advance_woven unit hi run f, Action.bind_apply,
            Action.bind_apply]
          rcases hstep : unit.step run f i w with ⟨_ | flow, w'⟩
          · exact .nil
          · exact ih (step_within hcertified run hpc hi f w flow w' hstep) w'

theorem State.result_placed (s : State) : (s.placed place).result = s.result := by
  cases s <;> rfl

/-- A run from an image is the run by positions. -/
theorem run_of_presents (hcertified : code.Certified depths deepest)
    (hpresents : unit.image.Presents code.instrs place) (run : Runner) (steps : Nat)
    (this : ObjectRef) (args : List Value) :
    unit.run run steps this args = (unit.recast (.woven code.instrs)).run run steps this args := by
  have hloop (f : Frame) :
      unit.loop run steps 0 f = (unit.recast (.woven code.instrs)).loop run steps 0 f := by
    have hplaced : (State.at 0 f).placed place = .at 0 f := by
      rw [State.placed, hpresents.start]
    have hafter := after_of_presents hcertified hpresents run steps
      (s := .at 0 f) ⟨0, hcertified.start⟩
    rw [hplaced] at hafter
    rw [loop_eq_after, loop_eq_after, hafter, bind_assoc]
    simp only [pure_bind, State.result_placed]
  unfold CompiledBody.run
  rw [hloop]
  rfl

end CompiledBody

/-! ## The bodies of the back-ends -/

/-- Where the instructions of code are in the image that a back-end makes of it. -/
def Backend.place (instrs : List Instr) : Backend → Nat → Nat
  | .assembly => ByteCode.offsetOf instrs
  | .weave => id

namespace Emitter

variable {e : Emitter} {code : Code} {owner : TypeId} {unit : CompiledBody}

/-- A body realizes the code that it was made of, if its bytes are fewer than four gigabytes. -/
theorem realizes_body (h : e.body owner code = .ok unit)
    (hsize : e.backend = .assembly → ∀ bytes, ByteCode.encode code = .ok bytes →
      bytes.size < UInt32.size) :
    unit.Realizes owner code (e.backend.place code.instrs.toList) := by
  rcases e with ⟨_ | _, checked⟩
  · rcases hbytes : ByteCode.assemble checked code with fault | bytes
    · simp only [body, image, hbytes] at h
      cases h
    · simp only [body, image, hbytes] at h
      cases h
      have hencode := ByteCode.encode_of_assemble hbytes
      exact ⟨rfl, rfl, rfl, rfl, Image.presents_assembled hencode (hsize rfl bytes hencode)⟩
  · cases h
    exact ⟨rfl, rfl, rfl, rfl, Image.presents_woven code.instrs⟩

/-- So it does if its instructions are few enough. -/
theorem realizes_of_size_lt (h : e.body owner code = .ok unit)
    (hsize : 5 * code.instrs.size < UInt32.size) :
    unit.Realizes owner code (e.backend.place code.instrs.toList) := by
  refine realizes_body h fun _ bytes hencode => ?_
  exact Nat.lt_of_le_of_lt (ByteCode.size_encode_le hencode) hsize

/-- **Lock-step of the back-ends.** The bodies that both make of verified code execute the same
instructions at the same frames and worlds and with the same calls, are where each other are after
every number of them, and so end alike or run on alike. -/
theorem backends_lockstep {code : Code} {deepest : Nat} (hverify : code.verify = .ok deepest)
    {bytes : Array UInt8} (hencode : ByteCode.encode code = .ok bytes)
    (hsize : bytes.size < UInt32.size) {owner : TypeId} {checked checked' : Bool} {assembled woven : CompiledBody}
    (hassembled : (⟨.assembly, checked⟩ : Emitter).body owner code = .ok assembled)
    (hwoven : (⟨.weave, checked'⟩ : Emitter).body owner code = .ok woven)
    (run : Runner) (this : ObjectRef) (args : List Value) (w : World) :
    (∀ n, List.Forall₂ (Moment.Presents (ByteCode.offsetOf code.instrs.toList))
        (assembled.trace run n (.at 0 (.start code.locals this args)) w)
        (woven.trace run n (.at 0 (.start code.locals this args)) w) ∧
      assembled.after run n (.at 0 (.start code.locals this args)) w =
        (woven.after run n (.at 0 (.start code.locals this args)) >>= fun s =>
          pure (s.placed (ByteCode.offsetOf code.instrs.toList))) w) ∧
    ∀ steps, assembled.run run steps this args w = woven.run run steps this args w := by
  obtain ⟨depths, -, hcertified⟩ := Code.certified_of_verify hverify
  have hrealizes := realizes_body hassembled fun _ bytes' hbytes' => by
    obtain rfl : bytes = bytes' := Except.ok.inj (hencode.symm.trans hbytes')
    exact hsize
  have hpresents := hrealizes.presents
  have hrecast := hrealizes.recast_eq (.woven code.instrs)
  have hstart : (CompiledBody.State.at 0 (.start code.locals this args)).Within depths :=
    ⟨0, hcertified.start⟩
  have hplaced : (CompiledBody.State.at 0 (.start code.locals this args)).placed
      (Backend.place code.instrs.toList .assembly) = .at 0 (.start code.locals this args) := by
    rw [CompiledBody.State.placed, hpresents.start]
  cases hwoven
  refine ⟨fun n => ⟨?_, ?_⟩, fun steps => ?_⟩
  · have htrace := CompiledBody.trace_of_presents hcertified hpresents run n hstart w
    rw [hrecast, hplaced] at htrace
    exact htrace
  · have hafter := CompiledBody.after_of_presents hcertified hpresents run n hstart
    rw [hrecast, hplaced] at hafter
    exact congrFun hafter w
  · have hrun := CompiledBody.run_of_presents hcertified hpresents run steps this args
    rw [hrecast] at hrun
    exact congrFun hrun w

/-- Code that goes on for as long as its parameter is not null, and makes it so. -/
def clearingCode : Code where
  name := "clear"
  arity := 2
  locals := 2
  instrs := #[.load 1, .ifNull 5, .null, .store 1, .jump 0, .retVoid]
  constants := #[]

/-- Its bytes. -/
def clearingBytes : Array UInt8 :=
  #[0x10, 1, 0, 0x93, 17, 0, 0, 0, 0x04, 0x11, 1, 0, 0x90, 0, 0, 0, 0, 0xa3]

theorem verify_clearingCode : clearingCode.verify = .ok 1 := by decide +kernel

theorem encode_clearingCode : ByteCode.encode clearingCode = .ok clearingBytes := by rfl

theorem body_clearingCode : (⟨.assembly, true⟩ : Emitter).body .root clearingCode =
    .ok ⟨"clear", .root, 2, #[], .assembled clearingBytes⟩ := by
  have hwell : ByteCode.malformedAt? clearingBytes 0 = none := by decide +kernel
  simp only [body, image, ByteCode.assemble, encode_clearingCode, bind, Except.bind, hwell]
  rfl

/-- Lock-step through a branch forward and one back: after eight instructions both bodies return. -/
theorem backends_lockstep_clearing :
    ∃ assembled woven,
      clearingCode.verify = .ok 1 ∧ ByteCode.encode clearingCode = .ok clearingBytes ∧
      clearingBytes.size < UInt32.size ∧
      (⟨.assembly, true⟩ : Emitter).body .root clearingCode = .ok assembled ∧
      (⟨.weave, true⟩ : Emitter).body .root clearingCode = .ok woven ∧
      (assembled.run (fun _ => throw .exhausted) 8 ⟨0, .root⟩ [.str "x"] (.initial {})).1 =
        .ok .void := by
  have hwoven : (⟨.weave, true⟩ : Emitter).body .root clearingCode =
      .ok ⟨"clear", .root, 2, #[], .woven clearingCode.instrs⟩ := rfl
  refine ⟨_, _, verify_clearingCode, encode_clearingCode, by decide, body_clearingCode, hwoven, ?_⟩
  rw [(backends_lockstep verify_clearingCode encode_clearingCode (by decide) body_clearingCode hwoven
    (fun _ => throw .exhausted) ⟨0, .root⟩ [.str "x"] (.initial {})).2 8]
  rfl

end Emitter

end Interpose
