import Interpose.Proofs.BackEnds
import Interpose.Proofs.Definitions

/-!
# Where code stores

Code stores only into arrays of its own if whatever it stores into is an array that the same run of it has
made, which is followed through its locals and its stack. What a back-end makes of such code stores only
into arrays of its own, too.
-/

namespace Interpose

/-! ## What is known of a running body -/

/-- What is known of a running body: of each local, and of each value on its stack, the top first, whether it is
an array that the body has made. -/
structure Marks where
  locals : Nat → Bool
  stack : List Bool

namespace Instr

/-- Whether an instruction moves a value between the locals and the stack, or makes an array. -/
def isTracked : Instr → Bool
  | .load _ | .store _ | .dup | .newArray => true
  | _ => false

/-- Whether an instruction stores into an array. -/
def stores : Instr → Bool
  | .arrayStore => true
  | _ => false

end Instr

namespace Marks

/-- What is known of a body that starts. -/
def start : Marks := ⟨fun _ => false, []⟩

/-- Values are taken from the stack, and others put there. -/
def put (m : Marks) (pops : Nat) (pushed : List Bool) : Marks :=
  { m with stack := pushed ++ m.stack.drop pops }

/-- What is known after an instruction: what is moved between the locals and the stack stays what it is, a new
array is one of the body's own, and anything else that comes to the stack may come from elsewhere. -/
def after (code : Code) (m : Marks) : Instr → Marks
  | .load n => m.put 0 [m.locals n.toNat]
  | .store n =>
    { m.put 1 [] with locals := fun k => if k = n.toNat then m.stack.headD false else m.locals k }
  | .dup => m.put 0 [m.stack.headD false]
  | .newArray => m.put 1 [true]
  | i =>
    match code.stackEffect i with
    | .ok effect => m.put effect.pops (List.replicate effect.pushes false)
    | .error _ => m

/-- Nothing is known of what other instructions put on the stack. -/
theorem after_eq_put {code : Code} {i : Instr} {pops pushes : Nat} (m : Marks)
    (h : code.stackEffect i = .ok ⟨pops, pushes⟩) (huntracked : i.isTracked = false) :
    m.after code i = m.put pops (List.replicate pushes false) := by
  have heffect : m.after code i = match code.stackEffect i with
      | .ok effect => m.put effect.pops (List.replicate effect.pushes false)
      | .error _ => m := by
    cases i
    case load n => cases huntracked
    case store n => cases huntracked
    case dup => cases huntracked
    case newArray => cases huntracked
    all_goals rfl
  rw [heffect, h]

end Marks

/-- The places that an instruction leads to, which is followed by another one at a place. -/
def Instr.leads (i : Instr) (next : Nat) : List Nat :=
  match i.successors with
  | .next => [next]
  | .branch t => [next, t.toNat]
  | .jump t => [t.toNat]
  | .none => []

namespace Code

/-- Whether control can reach a place of an image of code with something known. -/
inductive Reaches (code : Code) (image : Image) : Nat → Marks → Prop
  | start : code.Reaches image 0 .start
  | go {pc next q : Nat} {m : Marks} {i : Instr} (h : code.Reaches image pc m)
      (hfetch : image.fetch? pc = some (i, next)) (hq : q ∈ i.leads next) :
      code.Reaches image q (m.after code i)

/-- Whether an image of code has nothing stored into but arrays that the body has made. -/
def StoresOwnIn (code : Code) (image : Image) : Prop :=
  ∀ pc m next, code.Reaches image pc m → image.fetch? pc = some (.arrayStore, next) →
    m.stack[2]? = some true

/-- Whether code stores only into arrays that it has made. -/
def StoresOwn (code : Code) : Prop := code.StoresOwnIn (.woven code.instrs)

end Code

/-! ## Images of code -/

section

variable {R : UInt32 → UInt32 → Prop} {i moved : Instr}

/-- What is known after an instruction does not depend on where it leads. -/
theorem Marks.after_relocated (h : ByteCode.Relocated R i moved) (code : Code) (m : Marks) :
    m.after code moved = m.after code i := by
  cases h <;> rfl

/-- An instruction with its target turned into a place leads to the places of what it led to. -/
theorem Instr.mem_leads_relocated {place : Nat → Nat} {pc q : Nat}
    (h : ByteCode.Relocated (fun t o => o.toNat = place t.toNat) i moved)
    (hq : q ∈ moved.leads (place (pc + 1))) : ∃ p ∈ i.leads (pc + 1), q = place p := by
  cases h with
  | ifNull h | ifNonNull h =>
      rcases List.mem_cons.1 hq with rfl | hq
      · exact ⟨_, List.mem_cons_self, rfl⟩
      · obtain rfl := List.mem_singleton.1 hq
        exact ⟨_, List.mem_cons_of_mem _ List.mem_cons_self, h⟩
  | jump h =>
      obtain rfl := List.mem_singleton.1 hq
      exact ⟨_, List.mem_cons_self, h⟩
  | same hnone =>
      rw [Instr.leads] at hq ⊢
      rw [Instr.target?] at hnone
      split at hq
      · obtain rfl := List.mem_singleton.1 hq
        exact ⟨_, List.mem_cons_self, rfl⟩
      all_goals simp_all

end

namespace Code

variable {code : Code} {image : Image} {place : Nat → Nat}

/-- What is fetched at the place of a position is the instruction that has the position. -/
theorem exists_of_fetch (hpresents : image.Presents code.instrs place)
    (hend : ∀ pc, code.instrs[pc]? = none → image.fetch? (place pc) = none) {pc next : Nat} {moved : Instr}
    (hfetch : image.fetch? (place pc) = some (moved, next)) : ∃ i, code.instrs[pc]? = some i ∧
      ByteCode.Relocated (fun t o => o.toNat = place t.toNat) i moved ∧ next = place (pc + 1) := by
  cases hi : code.instrs[pc]? with
  | none =>
      rw [hend pc hi] at hfetch
      cases hfetch
  | some i =>
      obtain ⟨_, hmoved, hfetch'⟩ := hpresents.fetch hi
      rw [hfetch'] at hfetch
      cases hfetch
      exact ⟨i, rfl, hmoved, rfl⟩

/-- Control that reaches a place of an image reaches the position that has it. -/
theorem Reaches.exists_position (hpresents : image.Presents code.instrs place)
    (hend : ∀ pc, code.instrs[pc]? = none → image.fetch? (place pc) = none) {q : Nat} {m : Marks}
    (h : code.Reaches image q m) : ∃ pc, q = place pc ∧ code.Reaches (.woven code.instrs) pc m := by
  induction h with
  | start => exact ⟨0, hpresents.start.symm, .start⟩
  | @go q next q' m moved h hfetch hq ih =>
      obtain ⟨pc, rfl, hreaches⟩ := ih
      obtain ⟨i, hi, hmoved, rfl⟩ := exists_of_fetch hpresents hend hfetch
      obtain ⟨p, hp, rfl⟩ := Instr.mem_leads_relocated hmoved hq
      rw [Marks.after_relocated hmoved]
      exact ⟨p, rfl, .go hreaches (by rw [Image.fetch?, hi]; rfl) hp⟩

/-- What presents code that stores only into its own arrays stores only into such. -/
theorem StoresOwn.of_presents (h : code.StoresOwn) (hpresents : image.Presents code.instrs place)
    (hend : ∀ pc, code.instrs[pc]? = none → image.fetch? (place pc) = none) : code.StoresOwnIn image := by
  intro q m next hreached hfetch
  obtain ⟨pc, rfl, hreaches⟩ := hreached.exists_position hpresents hend
  obtain ⟨i, hi, hmoved, rfl⟩ := exists_of_fetch hpresents hend hfetch
  cases hmoved
  exact h pc m (pc + 1) hreaches (by rw [Image.fetch?, hi]; rfl)

/-- Whether the bytes that code is encoded in are fewer than four gigabytes, unless it has no branches. -/
def IsShort (code : Code) : Prop :=
  (∀ i ∈ code.instrs, i.target? = none) ∨
    ∀ bytes, ByteCode.encode code = .ok bytes → bytes.size < UInt32.size

theorem isShort_of_size_lt (hsize : 5 * code.instrs.size < UInt32.size) : code.IsShort :=
  .inr fun _ hencode => Nat.lt_of_le_of_lt (ByteCode.size_encode_le hencode) hsize

end Code

/-- Assembled code has each of its instructions at its offset if no offset is too large for a branch. -/
theorem Image.presents_of_isShort {code : Code} {bytes : Array UInt8} (h : ByteCode.encode code = .ok bytes)
    (hshort : code.IsShort) :
    (Image.assembled bytes).Presents code.instrs (ByteCode.offsetOf code.instrs.toList) := by
  rcases hshort with hstraight | hsize
  · refine ⟨ByteCode.offsetOf_zero _, fun {pc i} hi => ?_⟩
    obtain ⟨moved, hmoved, hdecode⟩ := ByteCode.decode_encode h hi
    have hnone := hstraight i (Array.mem_of_getElem? hi)
    refine ⟨moved, ?_, hdecode⟩
    cases ByteCode.relocated_of_relocate hmoved with
    | same _ => exact .same hnone
    | ifNull _ | ifNonNull _ | jump _ => cases hnone
  · exact presents_assembled h (hsize bytes h)

/-- Behind assembled code there is nothing to be fetched. -/
theorem Image.fetch?_offsetOf_eq_none {code : Code} {bytes : Array UInt8} (h : ByteCode.encode code = .ok bytes)
    {pc : Nat} (hpc : code.instrs[pc]? = none) :
    (Image.assembled bytes).fetch? (ByteCode.offsetOf code.instrs.toList pc) = none := by
  have hend : ∀ (instrs : List Instr) (i : Nat), instrs.length ≤ i →
      ByteCode.offsetOf instrs i = ByteCode.offsetOf instrs instrs.length := by
    intro instrs
    induction instrs with
    | nil =>
        intro i _
        cases i <;> rfl
    | cons instr rest ih =>
        intro i hi
        obtain ⟨k, rfl⟩ : ∃ k, i = k + 1 := ⟨i - 1, by simp at hi; omega⟩
        rw [ByteCode.offsetOf_cons, List.length_cons, ByteCode.offsetOf_cons, ih k (by simpa using hi)]
  have hle : code.instrs.toList.length ≤ pc := by simpa using hpc
  have hnone : bytes[ByteCode.offsetOf code.instrs.toList pc]? = none := by
    rw [hend _ _ hle, ← ByteCode.size_encode h]
    exact Array.getElem?_eq_none (Nat.le_refl _)
  simp [Image.fetch?, ByteCode.decode, ByteCode.instrAt?, hnone]

/-- The image that a back-end makes of code that stores only into its own arrays does so, too. -/
theorem Emitter.storesOwnIn_image {e : Emitter} {code : Code} {image : Image} (h : e.image code = .ok image)
    (hshort : code.IsShort) (hstores : code.StoresOwn) : code.StoresOwnIn image := by
  rw [Emitter.image] at h
  cases hbackend : e.backend with
  | weave =>
      rw [hbackend] at h
      cases h
      exact hstores
  | assembly =>
      rw [hbackend] at h
      obtain ⟨bytes, hbytes, rfl⟩ := map_eq_ok.1 h
      have hencode := ByteCode.encode_of_assemble hbytes
      exact hstores.of_presents (Image.presents_of_isShort hencode hshort)
        fun pc => Image.fetch?_offsetOf_eq_none hencode

end Interpose
