import Interpose.Code.ByteCode
import Interpose.Code.Verify
import Mathlib.Data.List.Forall2

/-!
# The byte form of code

Encoding code puts its instructions one after another, each at the sum of the lengths before it.
Decoding at such an offset reads the instruction back, its target being the offset of the target
instruction, and goes on at the offset of the next one. So all of the code is read back from its bytes,
which makes checking them superfluous.
-/

namespace Interpose

@[simp] theorem StaticSlot.ofByte?_byte (slot : StaticSlot) :
    StaticSlot.ofByte? slot.byte = some slot := by
  cases slot <;> rfl

@[simp] theorem Kind.ofByte?_toByte (kind : Kind) : Kind.ofByte? kind.toByte = some kind := by
  cases kind <;> rfl

namespace ByteCode

/-! ## Words in bytes -/

/-- Joining a low part with a high one adds them. -/
theorem or_shiftLeft_eq_add {low i : Nat} (h : low < 1 <<< i) (high : Nat) :
    low ||| high <<< i = low + high <<< i := by
  rw [Nat.one_shiftLeft] at h
  rw [Nat.or_comm, ← Nat.shiftLeft_add_eq_or_of_lt h, Nat.add_comm]

/-- A byte is moved up inside a word without loss. -/
theorem shiftLeft_mod_eq {byte k size : Nat} (hbyte : byte < 256) (hsize : 256 <<< k ≤ size) :
    byte <<< k % size = byte <<< k := by
  apply Nat.mod_eq_of_lt
  calc byte <<< k < 256 <<< k := by
        rw [Nat.shiftLeft_eq, Nat.shiftLeft_eq]
        exact Nat.mul_lt_mul_of_pos_right hbyte (Nat.two_pow_pos k)
    _ ≤ size := hsize

/-- The two bytes of a word, joined again. -/
theorem join16 (v : UInt16) : v.toUInt8.toUInt16 ||| ((v >>> 8).toUInt8.toUInt16 <<< 8) = v := by
  have hv := v.toNat_lt
  apply UInt16.toNat_inj.1
  simp only [UInt16.toNat_or, UInt8.toNat_toUInt16, UInt16.toNat_toUInt8, UInt16.toNat_shiftLeft,
    UInt16.toNat_shiftRight, UInt16.reduceToNat, Nat.reduceMod, Nat.shiftRight_eq_div_pow]
  rw [shiftLeft_mod_eq (by omega) (by decide), or_shiftLeft_eq_add (i := 8) (by omega)]
  omega

/-- The four bytes of a double word, joined again. -/
theorem join32 (v : UInt32) :
    v.toUInt8.toUInt32 ||| ((v >>> 8).toUInt8.toUInt32 <<< 8) |||
      ((v >>> 16).toUInt8.toUInt32 <<< 16) ||| ((v >>> 24).toUInt8.toUInt32 <<< 24) = v := by
  have hv := v.toNat_lt
  apply UInt32.toNat_inj.1
  simp only [UInt32.toNat_or, UInt8.toNat_toUInt32, UInt32.toNat_toUInt8, UInt32.toNat_shiftLeft,
    UInt32.toNat_shiftRight, UInt32.reduceToNat, Nat.reduceMod, Nat.shiftRight_eq_div_pow]
  rw [shiftLeft_mod_eq (k := 8) (by omega) (by decide),
    shiftLeft_mod_eq (k := 16) (by omega) (by decide),
    shiftLeft_mod_eq (k := 24) (by omega) (by decide), or_shiftLeft_eq_add (i := 8) (by omega),
    or_shiftLeft_eq_add (i := 16) (by omega), or_shiftLeft_eq_add (i := 24) (by omega)]
  omega

/-! ## Reading an instruction back -/

/-- What a stream has at a position, as far as a list goes. -/
def HasAt (bytes : Array UInt8) (pc : Nat) (segment : List UInt8) : Prop :=
  ∀ k, (h : k < segment.length) → bytes[pc + k]? = some segment[k]

theorem hasAt_append (before segment after : List UInt8) :
    HasAt (before ++ (segment ++ after)).toArray before.length segment := by
  intro k hk
  rw [List.getElem?_toArray, List.getElem?_append_right (by omega), Nat.add_sub_cancel_left,
    List.getElem?_append_left hk, List.getElem?_eq_getElem hk]

/-- An instruction in a stream is read back where it begins. -/
theorem instrAt?_of_hasAt {bytes : Array UInt8} {pc : Nat} {i : Instr}
    (h : HasAt bytes pc (encodeInstr i)) : instrAt? bytes pc = some i := by
  have h0 : bytes[pc]? = some i.opcode := h 0 (by simp [encodeInstr])
  have hoperand (k : Nat) (hk : k < (operands i).length) :
      bytes[pc + 1 + k]? = some (operands i)[k] := by
    rw [Nat.add_assoc, Nat.add_comm 1 k]
    exact h (k + 1) (by simpa [encodeInstr] using hk)
  have h16 (v : UInt16) (hv : operands i = bytes16 v) : read16? bytes (pc + 1) = some v := by
    have b0 := hoperand 0 (by simp [hv, bytes16])
    have b1 := hoperand 1 (by simp [hv, bytes16])
    simp only [hv, bytes16, Nat.add_zero, List.getElem_cons_zero, List.getElem_cons_succ] at b0 b1
    simp only [read16?, b0, b1, Option.bind_eq_bind, Option.bind_some, Option.pure_def, join16]
  have h32 (v : UInt32) (hv : operands i = bytes32 v) : read32? bytes (pc + 1) = some v := by
    have b0 := hoperand 0 (by simp [hv, bytes32])
    have b1 := hoperand 1 (by simp [hv, bytes32])
    have b2 := hoperand 2 (by simp [hv, bytes32])
    have b3 := hoperand 3 (by simp [hv, bytes32])
    simp only [hv, bytes32, Nat.add_zero, List.getElem_cons_zero, List.getElem_cons_succ] at b0 b1 b2 b3
    simp only [read32?, b0, b1, b2, b3, Option.bind_eq_bind, Option.bind_some, Option.pure_def, join32]
  have h8 (v : UInt8) (hv : operands i = [v]) : bytes[pc + 1]? = some v := by
    have b0 := hoperand 0 (by simp [hv])
    simpa [hv] using b0
  unfold instrAt?
  rw [h0]
  -- by how many bytes the operand of an instruction takes
  cases i
  case null | newArray | arrayLoad | arrayStore | invokeDispatch | throw | ret | retVoid | dup | pop => rfl
  case load v | store v | const v | getField v | putField v | checkCast v | invokeSuper v |
      invokeSuperCtor v | newThrowable v =>
    simp only [Instr.opcode, Option.bind_eq_bind, Option.bind_some, h16 v rfl]
    rfl
  case ifNull t | ifNonNull t | jump t =>
    simp only [Instr.opcode, Option.bind_eq_bind, Option.bind_some, h32 t rfl]
    rfl
  case getStatic slot =>
    simp only [Instr.opcode, Option.bind_eq_bind, Option.bind_some, h8 _ rfl, StaticSlot.ofByte?_byte]
    rfl
  case box kind | unbox kind =>
    simp only [Instr.opcode, Option.bind_eq_bind, Option.bind_some, h8 _ rfl, Kind.ofByte?_toByte]
    rfl

/-- The lengths that offsets are reckoned with are those of the encoded instructions. -/
theorem length_encodeInstr (i : Instr) : (encodeInstr i).length = encodedLength i := by
  cases i <;> rfl

/-! ## Offsets -/

/-- The offset of the instruction at a position. -/
def offsetOf : List Instr → Nat → Nat
  | instr :: rest, i + 1 => encodedLength instr + offsetOf rest i
  | _, _ => 0

@[simp] theorem offsetOf_zero (instrs : List Instr) : offsetOf instrs 0 = 0 := by
  cases instrs <;> rfl

theorem offsetOf_cons (instr : Instr) (rest : List Instr) (i : Nat) :
    offsetOf (instr :: rest) (i + 1) = encodedLength instr + offsetOf rest i := rfl

theorem offsetOf_succ {instrs : List Instr} {i : Nat} {instr : Instr}
    (h : instrs[i]? = some instr) :
    offsetOf instrs (i + 1) = offsetOf instrs i + encodedLength instr := by
  induction instrs generalizing i with
  | nil => cases h
  | cons first rest ih =>
      cases i with
      | zero =>
          obtain rfl : first = instr := Option.some.inj h
          rw [offsetOf_cons, offsetOf_zero, offsetOf_zero, Nat.add_comm]
      | succ i => rw [offsetOf_cons, offsetOf_cons, ih h, Nat.add_assoc]

/-- Offsets depend on the lengths of the instructions alone. -/
theorem offsetOf_congr {instrs others : List Instr}
    (h : instrs.map encodedLength = others.map encodedLength) (i : Nat) :
    offsetOf instrs i = offsetOf others i := by
  induction instrs generalizing others i with
  | nil =>
      obtain rfl := List.map_eq_nil_iff.1 h.symm
      rfl
  | cons instr rest ih =>
      obtain ⟨other, others, rfl, hlength, hrest⟩ := List.map_eq_cons_iff.1 h.symm
      cases i with
      | zero => rfl
      | succ i => rw [offsetOf_cons, offsetOf_cons, hlength, ih hrest.symm]

theorem offsetOf_le_length (instrs : List Instr) (i : Nat) :
    offsetOf instrs i ≤ offsetOf instrs instrs.length := by
  induction instrs generalizing i with
  | nil => exact Nat.le_refl 0
  | cons instr rest ih =>
      cases i with
      | zero =>
          rw [offsetOf_zero]
          exact Nat.zero_le _
      | succ i => exact Nat.add_le_add_left (ih i) _

theorem encodedLength_le (i : Instr) : encodedLength i ≤ 5 := by
  cases i <;> simp [encodedLength]

/-- Code is at most five times as long in bytes as in instructions. -/
theorem offsetOf_le (instrs : List Instr) (i : Nat) : offsetOf instrs i ≤ 5 * instrs.length := by
  refine Nat.le_trans (offsetOf_le_length instrs i) ?_
  induction instrs with
  | nil => exact Nat.le_refl _
  | cons instr rest ih =>
      have hlength := encodedLength_le instr
      have hrest := ih
      rw [List.length_cons, offsetOf_cons]
      omega

theorem getElem?_offsetsFrom {instrs : List Instr} {i : Nat} (hi : i ≤ instrs.length)
    (start : Nat) : (offsetsFrom start instrs)[i]? = some (start + offsetOf instrs i) := by
  induction instrs generalizing start i with
  | nil =>
      rw [List.length_nil, Nat.le_zero] at hi
      subst hi
      simp [offsetsFrom]
  | cons instr rest ih =>
      cases i with
      | zero => simp [offsetsFrom]
      | succ i =>
          rw [offsetsFrom, List.getElem?_cons_succ, ih (by simpa using hi), offsetOf_cons, Nat.add_assoc]

theorem length_offsetsFrom (start : Nat) (instrs : List Instr) :
    (offsetsFrom start instrs).length = instrs.length + 1 := by
  induction instrs generalizing start with
  | nil => rfl
  | cons instr rest ih => simp [offsetsFrom, ih]

/-- The table of offsets has that of every instruction and that of the end, and no others. -/
theorem getElem?_offsets {instrs : List Instr} {i : Nat} {o : UInt32} :
    (offsets instrs)[i]? = some o ↔
      i ≤ instrs.length ∧ o = UInt32.ofNat (offsetOf instrs i) := by
  unfold offsets
  rw [List.getElem?_toArray, List.getElem?_map]
  rcases Nat.lt_or_ge instrs.length i with h | h
  · rw [List.getElem?_eq_none (by rw [length_offsetsFrom]; omega)]
    simp
    omega
  · rw [getElem?_offsetsFrom h]
    simp [h, eq_comm]

/-! ## Relocation -/

/-- Whether an instruction is another one but for its target, which is related to the other's. -/
inductive Relocated (R : UInt32 → UInt32 → Prop) : Instr → Instr → Prop
  | ifNull {t o : UInt32} (h : R t o) : Relocated R (.ifNull t) (.ifNull o)
  | ifNonNull {t o : UInt32} (h : R t o) : Relocated R (.ifNonNull t) (.ifNonNull o)
  | jump {t o : UInt32} (h : R t o) : Relocated R (.jump t) (.jump o)
  | same {i : Instr} (h : i.target? = none) : Relocated R i i

theorem Relocated.refl {R : UInt32 → UInt32 → Prop} (hR : ∀ t, R t t) (i : Instr) :
    Relocated R i i := by
  cases i
  case ifNull t => exact .ifNull (hR t)
  case ifNonNull t => exact .ifNonNull (hR t)
  case jump t => exact .jump (hR t)
  all_goals exact .same rfl

theorem Relocated.mono {R S : UInt32 → UInt32 → Prop} (hRS : ∀ t o, R t o → S t o) {i j : Instr}
    (h : Relocated R i j) : Relocated S i j := by
  cases h with
  | ifNull h => exact .ifNull (hRS _ _ h)
  | ifNonNull h => exact .ifNonNull (hRS _ _ h)
  | jump h => exact .jump (hRS _ _ h)
  | same h => exact .same h

/-- Moving a target changes no length. -/
theorem Relocated.encodedLength_eq {R : UInt32 → UInt32 → Prop} {i j : Instr}
    (h : Relocated R i j) : encodedLength j = encodedLength i := by
  cases h <;> rfl

theorem relocated_of_relocate {table : Array UInt32} {i j : Instr} (h : relocate table i = .ok j) :
    Relocated (fun t o => table[t.toNat]? = some o) i j := by
  cases i <;> simp only [relocate] at h
  case ifNull t =>
    split at h <;> cases h
    exact .ifNull ‹_›
  case ifNonNull t =>
    split at h <;> cases h
    exact .ifNonNull ‹_›
  case jump t =>
    split at h <;> cases h
    exact .jump ‹_›
  all_goals cases h; exact .same rfl

/-- Relocating a list relocates each instruction of it. -/
theorem getElem?_relocateFrom {table : Array UInt32} {instrs moved : List Instr} {pc : Nat}
    (h : relocateFrom table pc instrs = .ok moved) {i : Nat} {instr : Instr}
    (hi : instrs[i]? = some instr) :
    ∃ j, moved[i]? = some j ∧ relocate table instr = .ok j := by
  induction instrs generalizing pc moved i with
  | nil => cases hi
  | cons first rest ih =>
      simp only [relocateFrom] at h
      split at h
      · cases h
      next j hj =>
        split at h
        · cases h
        next others hothers =>
          cases h
          cases i with
          | zero =>
              cases hi
              exact ⟨j, rfl, hj⟩
          | succ i => exact ih hothers (by simpa using hi)

theorem length_relocateFrom {table : Array UInt32} {instrs moved : List Instr} {pc : Nat}
    (h : relocateFrom table pc instrs = .ok moved) : moved.length = instrs.length := by
  induction instrs generalizing pc moved with
  | nil =>
      cases h
      rfl
  | cons first rest ih =>
      simp only [relocateFrom] at h
      split at h
      · cases h
      · split at h
        · cases h
        next others hothers =>
          cases h
          simp [ih hothers]

theorem map_encodedLength_relocateFrom {table : Array UInt32} {instrs moved : List Instr} {pc : Nat}
    (h : relocateFrom table pc instrs = .ok moved) :
    moved.map encodedLength = instrs.map encodedLength := by
  apply List.ext_getElem?
  intro i
  rw [List.getElem?_map, List.getElem?_map]
  rcases Nat.lt_or_ge i instrs.length with hi | hi
  · obtain ⟨j, hj, hmoved⟩ := getElem?_relocateFrom h (List.getElem?_eq_getElem hi)
    rw [hj, List.getElem?_eq_getElem hi, Option.map_some, Option.map_some,
      (relocated_of_relocate hmoved).encodedLength_eq]
  · rw [List.getElem?_eq_none hi, List.getElem?_eq_none (by rw [length_relocateFrom h]; exact hi)]

theorem offsetOf_relocateFrom {table : Array UInt32} {instrs moved : List Instr} {pc : Nat}
    (h : relocateFrom table pc instrs = .ok moved) (i : Nat) :
    offsetOf moved i = offsetOf instrs i :=
  offsetOf_congr (map_encodedLength_relocateFrom h) i

/-! ## Encoded code -/

/-- The bytes of a list of instructions before one of them are as many as its offset says. -/
theorem length_flatMap_encodeInstr (instrs : List Instr) (i : Nat) :
    ((instrs.take i).flatMap encodeInstr).length = offsetOf instrs i := by
  induction instrs generalizing i with
  | nil => simp [offsetOf]
  | cons instr rest ih =>
      cases i with
      | zero => rfl
      | succ i =>
          rw [List.take_succ_cons, List.flatMap_cons, List.length_append, length_encodeInstr, ih,
            offsetOf_cons]

theorem hasAt_flatMap {instrs : List Instr} {i : Nat} {instr : Instr} (h : instrs[i]? = some instr) :
    HasAt (instrs.flatMap encodeInstr).toArray (offsetOf instrs i) (encodeInstr instr) := by
  obtain ⟨hi, rfl⟩ := List.getElem?_eq_some_iff.1 h
  have hsplit : instrs.flatMap encodeInstr = (instrs.take i).flatMap encodeInstr ++
      (encodeInstr instrs[i] ++ (instrs.drop (i + 1)).flatMap encodeInstr) := by
    rw [← List.flatMap_cons, ← List.flatMap_append, ← List.drop_eq_getElem_cons hi,
      List.take_append_drop]
  rw [hsplit, ← length_flatMap_encodeInstr]
  exact hasAt_append _ _ _

/-- Encoded code is as long as the offset of its end says. -/
theorem size_encode {code : Code} {bytes : Array UInt8} (h : encode code = .ok bytes) :
    bytes.size = offsetOf code.instrs.toList code.instrs.toList.length := by
  unfold encode at h
  split at h
  next instrs hinstrs =>
    cases h
    rw [← offsetOf_relocateFrom hinstrs, ← length_relocateFrom hinstrs,
      ← length_flatMap_encodeInstr, List.take_length]
    simp
  · cases h

/-- Code is at most five times as long encoded as in instructions. -/
theorem size_encode_le {code : Code} {bytes : Array UInt8} (h : encode code = .ok bytes) :
    bytes.size ≤ 5 * code.instrs.size := by
  have hoffset := offsetOf_le code.instrs.toList code.instrs.toList.length
  rwa [← size_encode h, Array.length_toList] at hoffset

/-- Encoded code decodes, at the offset of each of its instructions, to that instruction with its
target turned into an offset, and goes on at the offset of the next. -/
theorem decode_encode {code : Code} {bytes : Array UInt8} (h : encode code = .ok bytes) {i : Nat}
    {instr : Instr} (hi : code.instrs[i]? = some instr) :
    ∃ moved, relocate (offsets code.instrs.toList) instr = .ok moved ∧
      decode bytes (offsetOf code.instrs.toList i) =
        some (moved, offsetOf code.instrs.toList (i + 1)) := by
  have hlist : code.instrs.toList[i]? = some instr := by rwa [Array.getElem?_toList]
  unfold encode at h
  split at h
  next instrs hinstrs =>
    cases h
    obtain ⟨moved, hmoved, hrelocate⟩ := getElem?_relocateFrom hinstrs hlist
    refine ⟨moved, hrelocate, ?_⟩
    have hat := hasAt_flatMap hmoved
    rw [offsetOf_relocateFrom hinstrs] at hat
    rw [decode, instrAt?_of_hasAt hat, Option.map_some, offsetOf_succ hlist,
      (relocated_of_relocate hrelocate).encodedLength_eq]
  · cases h

/-- In streams below four gigabytes an offset of the table is the offset that it stands for. -/
theorem toNat_of_getElem?_offsets {instrs : List Instr} {i : Nat} {o : UInt32}
    (hsize : offsetOf instrs instrs.length < UInt32.size) (h : (offsets instrs)[i]? = some o) :
    o.toNat = offsetOf instrs i := by
  rw [(getElem?_offsets.1 h).2]
  exact UInt32.toNat_ofNat_of_lt' (Nat.lt_of_le_of_lt (offsetOf_le_length _ _) hsize)

/-! ## Reading code back -/

/-- The instructions of a stream from an offset on, each with the number of bytes that it takes, if
the stream decodes to its end. -/
def disassemble? (bytes : Array UInt8) (pc : Nat) : Option (List (Instr × Nat)) :=
  if _h : pc < bytes.size then
    match _hd : decode bytes pc with
    | some (i, next) => (disassemble? bytes next).map ((i, next - pc) :: ·)
    | none => none
  else if pc = bytes.size then some [] else none
termination_by bytes.size - pc
decreasing_by
  have := lt_of_decode _hd
  omega

/-- Whether what is read, an instruction and its length, is an instruction of code: with its operand,
which for a branch is the offset recorded for its target, and in as many bytes as are reckoned for
it. -/
structure ReadsBack (code : Code) (i : Instr) (read : Instr × Nat) : Prop where
  instr : Relocated
    (fun t o => t.toNat ≤ code.instrs.size ∧ o = UInt32.ofNat (offsetOf code.instrs.toList t.toNat))
    i read.1
  length : read.2 = encodedLength i

section Reading

variable {bytes : Array UInt8} {code : Code} {pc next : Nat} {instr : Instr}

theorem disassemble?_size (bytes : Array UInt8) : disassemble? bytes bytes.size = some [] := by
  rw [disassemble?, dif_neg (Nat.lt_irrefl _), if_pos rfl]

theorem disassemble?_of_decode (hpc : pc < bytes.size) (h : decode bytes pc = some (instr, next)) :
    disassemble? bytes pc = (disassemble? bytes next).map ((instr, next - pc) :: ·) := by
  rw [disassemble?, dif_pos hpc]
  split
  · rename_i hd
    cases h.symm.trans hd
    rfl
  · rename_i hd
    cases h.symm.trans hd

theorem disassemble?_of_decode_eq_none (hpc : pc < bytes.size) (h : decode bytes pc = none) :
    disassemble? bytes pc = none := by
  rw [disassemble?, dif_pos hpc]
  split
  · rename_i hd
    cases h.symm.trans hd
  · rfl

/-- A stream that is read to its end passes the check. -/
theorem malformedAt?_eq_none {read : List (Instr × Nat)} (h : disassemble? bytes pc = some read) :
    malformedAt? bytes pc = none := by
  fun_induction malformedAt? bytes pc generalizing read with
  | case1 pc hpc i next hd ih =>
      rw [disassemble?_of_decode hpc hd] at h
      obtain ⟨rest, hrest, -⟩ := Option.map_eq_some_iff.1 h
      exact ih hrest
  | case2 pc hpc hd =>
      rw [disassemble?_of_decode_eq_none hpc hd] at h
      cases h
  | case3 => rfl

/-- Every instruction begins before the end of the bytes. -/
theorem offsetOf_lt_size (h : encode code = .ok bytes) {i : Nat} (hi : i < code.instrs.size) :
    offsetOf code.instrs.toList i < bytes.size := by
  have hlist : code.instrs.toList[i]? = some code.instrs[i] := by
    rw [Array.getElem?_toList, Array.getElem?_eq_getElem hi]
  have hsucc := offsetOf_succ hlist
  have hle := offsetOf_le_length code.instrs.toList (i + 1)
  have hpos := encodedLength_pos code.instrs[i]
  rw [size_encode h]
  omega

/-- From the offset of each instruction on, the rest of the code is read back to the end. -/
theorem exists_disassemble? (h : encode code = .ok bytes) (n i : Nat) (hi : i + n = code.instrs.size) :
    ∃ read, disassemble? bytes (offsetOf code.instrs.toList i) = some read ∧
      List.Forall₂ (ReadsBack code) (code.instrs.toList.drop i) read := by
  -- from the end on, where nothing is left to read
  induction n generalizing i with
  | zero =>
      have hend : offsetOf code.instrs.toList i = bytes.size := by
        rw [size_encode h, Array.length_toList, ← hi, Nat.add_zero]
      rw [hend, List.drop_of_length_le (by rw [Array.length_toList]; omega)]
      exact ⟨[], disassemble?_size bytes, .nil⟩
  | succ n ih =>
      have hlt : i < code.instrs.size := by omega
      have hlist : code.instrs.toList[i]? = some code.instrs[i] := by
        rw [Array.getElem?_toList, Array.getElem?_eq_getElem hlt]
      obtain ⟨moved, hmoved, hdecode⟩ := decode_encode h (Array.getElem?_eq_getElem hlt)
      obtain ⟨rest, hrest, hreads⟩ := ih (i + 1) (by omega)
      have hback : ReadsBack code code.instrs[i]
          (moved, offsetOf code.instrs.toList (i + 1) - offsetOf code.instrs.toList i) := by
        refine ⟨(relocated_of_relocate hmoved).mono fun t o ho => ?_, ?_⟩
        · rw [← Array.length_toList]
          exact getElem?_offsets.1 ho
        · rw [offsetOf_succ hlist]
          exact Nat.add_sub_cancel_left _ _
      refine ⟨_, by rw [disassemble?_of_decode (offsetOf_lt_size h hlt) hdecode, hrest]; rfl, ?_⟩
      have hdrop : code.instrs.toList.drop i = code.instrs[i] :: code.instrs.toList.drop (i + 1) :=
        List.drop_eq_getElem_cons (by rwa [Array.length_toList])
      rw [hdrop]
      exact .cons hback hreads

/-- Code is read back from its bytes. -/
theorem disassemble?_encode (h : encode code = .ok bytes) :
    ∃ read, disassemble? bytes 0 = some read ∧
      List.Forall₂ (ReadsBack code) code.instrs.toList read := by
  have hread := exists_disassemble? h code.instrs.size 0 (Nat.zero_add _)
  rwa [offsetOf_zero, List.drop_zero] at hread

/-- Checking the bytes that code is encoded in never fails. -/
theorem assemble_eq_encode (check : Bool) (code : Code) : assemble check code = encode code := by
  cases h : encode code with
  | error e =>
      rw [assemble, h]
      rfl
  | ok bytes =>
      obtain ⟨read, hread, -⟩ := disassemble?_encode h
      rw [assemble, h]
      simp only [bind, Except.bind, malformedAt?_eq_none hread]
      split <;> rfl

theorem encode_of_assemble {check : Bool} (h : assemble check code = .ok bytes) : encode code = .ok bytes :=
  (assemble_eq_encode check code).symm.trans h

end Reading

end ByteCode

end Interpose
