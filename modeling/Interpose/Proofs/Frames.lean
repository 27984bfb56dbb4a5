import Interpose.Proofs.Actions
import Interpose.Proofs.ByteCode
import Interpose.Run.Frame

/-!
# Frames and images

An image presents instructions at places: woven code has each at its position, and assembled code
at its offset. Wherever an image presents an instruction, fetching and executing it does the same
to the frame and the world, and goes on at the place of the same instruction.
-/

namespace Interpose

open Interpose.Action (Yields)

/-! ## Where an instruction leads -/

/-- Whether control goes where an instruction can lead. -/
def Flow.Follows (i : Instr) : Flow → Prop
  | .next _ => i.successors = .next ∨ ∃ t, i.successors = .branch t
  | .jump t _ => i.successors = .branch t ∨ i.successors = .jump t
  | .ret _ => i.successors = .none

namespace CompiledBody

variable (unit : CompiledBody) (run : Runner)

theorem yields_fault {α : Type} {P : α → Prop} {fault : FrameFault} :
    Yields (unit.fault fault : Action α) P := Yields.raise

/-- An instruction that ends with a value leads where its kind says. -/
theorem step_follows (f : Frame) (i : Instr) : Yields (unit.step run f i) (Flow.Follows i) := by
  cases i
  case ifNull t | ifNonNull t =>
    refine Yields.bind fun popped => Yields.pure ?_
    split
    · first | exact .inl rfl | exact .inr ⟨t, rfl⟩
    · first | exact .inl rfl | exact .inr ⟨t, rfl⟩
  -- what is left ends with one sort of flow, after checks that end it with an error
  all_goals
    simp only [step]
    repeat' first
      | with_reducible exact Yields.raise
      | with_reducible exact yields_fault unit
      | with_reducible refine Yields.bind fun _ => ?_
      | with_reducible refine Yields.pure ?_
      | split
  all_goals first | exact .inl rfl | exact .inr rfl | rfl

end CompiledBody

/-! ## Places -/

/-- Whether an image has each of some instructions at its place, followed by the next one, with its
target turned into the place of the target. -/
structure Image.Presents (image : Image) (instrs : Array Instr) (place : Nat → Nat) : Prop where
  start : place 0 = 0
  fetch : ∀ {pc : Nat} {i : Instr}, instrs[pc]? = some i →
    ∃ moved, ByteCode.Relocated (fun t o => o.toNat = place t.toNat) i moved ∧
      image.fetch? (place pc) = some (moved, place (pc + 1))

/-- Woven code has every instruction at its position. -/
theorem Image.presents_woven (instrs : Array Instr) : (Image.woven instrs).Presents instrs id where
  start := rfl
  fetch {pc i} h := ⟨i, .refl (R := fun t o => o.toNat = id t.toNat) (fun _ => rfl) i,
    by simp [Image.fetch?, h]⟩

/-- Assembled code below four gigabytes has every instruction at its offset. -/
theorem Image.presents_assembled {code : Code} {bytes : Array UInt8}
    (h : ByteCode.encode code = .ok bytes) (hsize : bytes.size < UInt32.size) :
    (Image.assembled bytes).Presents code.instrs (ByteCode.offsetOf code.instrs.toList) where
  start := ByteCode.offsetOf_zero _
  fetch {pc i} hi := by
    obtain ⟨moved, hmoved, hdecode⟩ := ByteCode.decode_encode h hi
    rw [ByteCode.size_encode h] at hsize
    exact ⟨moved, (ByteCode.relocated_of_relocate hmoved).mono fun _ _ =>
      ByteCode.toNat_of_getElem?_offsets hsize, hdecode⟩

/-- Whether a body is code of a type in an image that presents it. -/
structure CompiledBody.Realizes (unit : CompiledBody) (owner : TypeId) (code : Code)
    (place : Nat → Nat) : Prop where
  name : unit.name = code.name
  owner : unit.owner = owner
  locals : unit.locals = code.locals
  constants : unit.constants = code.constants
  presents : unit.image.Presents code.instrs place

/-- The state after an instruction at a position, positions being those of instructions. -/
def Flow.state (pc : Nat) : Flow → CompiledBody.State
  | .next f => .at (pc + 1) f
  | .jump t f => .at t.toNat f
  | .ret v => .returned v

/-- A state with its position turned into a place. -/
def CompiledBody.State.placed (place : Nat → Nat) : CompiledBody.State → CompiledBody.State
  | .at pc f => .at (place pc) f
  | .returned v => .returned v

namespace CompiledBody

variable {unit : CompiledBody} {instrs : Array Instr} {place : Nat → Nat}

/-- At the place of an instruction an image executes that instruction, and goes on at the place of
the one that it leads to. -/
theorem advance_of_presents (hpresents : unit.image.Presents instrs place) (run : Runner) {pc : Nat}
    {i : Instr} (hi : instrs[pc]? = some i) (f : Frame) :
    unit.advance run (place pc) f =
      unit.step run f i >>= fun flow => pure ((flow.state pc).placed place) := by
  obtain ⟨moved, hmoved, hfetch⟩ := hpresents.fetch hi
  simp only [advance, hfetch]
  cases hmoved with
  | same hnone =>
      refine (step_follows unit run f i).bind_congr fun flow hflow => ?_
      cases flow with
      | next f => rfl
      | ret v => rfl
      | jump t f =>
          simp only [Flow.Follows] at hflow
          rcases hflow with h | h <;> simp [Instr.target?, h] at hnone
  | ifNull h =>
      simp only [step, bind_assoc, pure_bind]
      congr
      funext popped
      by_cases hnull : popped.1 = .null <;> simp [hnull, Flow.state, State.placed, h]
  | ifNonNull h =>
      simp only [step, bind_assoc, pure_bind]
      congr
      funext popped
      by_cases hnull : popped.1 = .null <;> simp [hnull, Flow.state, State.placed, h]
  | jump h => simp [step, Flow.state, State.placed, h]

end CompiledBody

end Interpose
