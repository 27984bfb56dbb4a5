import Interpose.Code.Fault

/-!
# Byte code

The byte form of code: an opcode, then operands with the low byte first. Branch targets become
byte offsets. `decode` reads one instruction at an offset and always moves forward, so a stream is
checked in one pass.
-/

namespace Interpose

namespace Instr

/-- The opcode of an instruction. -/
def opcode : Instr → UInt8
  | pop => 0x01
  | dup => 0x02
  | null => 0x04
  | const _ => 0x0a
  | load _ => 0x10
  | store _ => 0x11
  | getStatic _ => 0x20
  | jump _ => 0x90
  | ifNull _ => 0x93
  | ifNonNull _ => 0x94
  | ret => 0xa2
  | retVoid => 0xa3
  | invokeSuper _ => 0xa4
  | invokeSuperCtor _ => 0xa5
  | invokeDispatch => 0xa6
  | getField _ => 0xb1
  | putField _ => 0xb2
  | newArray => 0xc0
  | arrayLoad => 0xc1
  | arrayStore => 0xc2
  | box _ => 0xd0
  | unbox _ => 0xd1
  | checkCast _ => 0xd2
  | newThrowable _ => 0xe0
  | throw => 0xe1

end Instr

/-- The byte of a static slot. -/
def StaticSlot.byte : StaticSlot → UInt8
  | dispatcher => 0
  | operations => 1

/-- The static slot of a byte. -/
def StaticSlot.ofByte? (b : UInt8) : Option StaticSlot :=
  if b = 0 then some dispatcher else if b = 1 then some operations else none

/-- The byte of a kind: its position among the kinds. -/
def Kind.toByte (k : Kind) : UInt8 := UInt8.ofNat k.index

/-- The kind of a byte. -/
def Kind.ofByte? (b : UInt8) : Option Kind := Kind.ofIndex? b.toNat

namespace ByteCode

/-- The two bytes of a word. -/
def bytes16 (v : UInt16) : List UInt8 := [v.toUInt8, (v >>> 8).toUInt8]

/-- The four bytes of a word. -/
def bytes32 (v : UInt32) : List UInt8 :=
  [v.toUInt8, (v >>> 8).toUInt8, (v >>> 16).toUInt8, (v >>> 24).toUInt8]

/-- The operand bytes of an instruction whose branch target is a byte offset. -/
def operands : Instr → List UInt8
  | .load n => bytes16 n
  | .store n => bytes16 n
  | .const c => bytes16 c
  | .getStatic slot => [slot.byte]
  | .getField c => bytes16 c
  | .putField c => bytes16 c
  | .box kind => [kind.toByte]
  | .unbox kind => [kind.toByte]
  | .checkCast c => bytes16 c
  | .ifNull t => bytes32 t
  | .ifNonNull t => bytes32 t
  | .jump t => bytes32 t
  | .invokeSuper c => bytes16 c
  | .invokeSuperCtor c => bytes16 c
  | .newThrowable c => bytes16 c
  | .null | .newArray | .arrayLoad | .arrayStore | .invokeDispatch | .throw | .ret | .retVoid
  | .dup | .pop => []

/-- An instruction in bytes. -/
def encodeInstr (i : Instr) : List UInt8 := i.opcode :: operands i

/-- How many bytes an instruction takes: one for its opcode, and those of its operand. -/
def encodedLength : Instr → Nat
  | .null | .newArray | .arrayLoad | .arrayStore | .invokeDispatch | .throw | .ret | .retVoid
  | .dup | .pop => 1
  | .getStatic _ | .box _ | .unbox _ => 2
  | .load _ | .store _ | .const _ | .getField _ | .putField _ | .checkCast _ | .invokeSuper _
  | .invokeSuperCtor _ | .newThrowable _ => 3
  | .ifNull _ | .ifNonNull _ | .jump _ => 5

theorem encodedLength_pos (i : Instr) : 0 < encodedLength i := by
  cases i <;> simp [encodedLength]

/-- The offset after each instruction, and so before the next, from a starting offset. -/
def offsetsFrom : Nat → List Instr → List Nat
  | start, [] => [start]
  | start, i :: rest => start :: offsetsFrom (start + encodedLength i) rest

/-- The offset of each instruction, and of the end. -/
def offsets (instrs : List Instr) : Array UInt32 :=
  ((offsetsFrom 0 instrs).map UInt32.ofNat).toArray

/-- An instruction with its target turned into an offset. -/
def relocate (offsets : Array UInt32) (i : Instr) : Except CodeFault Instr :=
  let offset (t : UInt32) (make : UInt32 → Instr) : Except CodeFault Instr :=
    match offsets[t.toNat]? with
    | some o => .ok (make o)
    | none => .error (.targetOutOfRange t)
  match i with
  | .ifNull t => offset t .ifNull
  | .ifNonNull t => offset t .ifNonNull
  | .jump t => offset t .jump
  | _ => .ok i

/-- Turns the targets of instructions into offsets; a fault is given with its position. -/
def relocateFrom (offsets : Array UInt32) :
    Nat → List Instr → Except (Nat × CodeFault) (List Instr)
  | _, [] => .ok []
  | pc, i :: rest =>
    match relocate offsets i with
    | .error fault => .error (pc, fault)
    | .ok moved =>
      match relocateFrom offsets (pc + 1) rest with
      | .error fault => .error fault
      | .ok others => .ok (moved :: others)

/-- The bytes of code. -/
def encode (code : Code) : Except EmitError (Array UInt8) :=
  match relocateFrom (offsets code.instrs.toList) 0 code.instrs.toList with
  | .ok instrs => .ok (instrs.flatMap encodeInstr).toArray
  | .error (pc, fault) => .error (.invalidCode code.name pc fault)

/-- The word at an offset. -/
def read16? (bytes : Array UInt8) (at_ : Nat) : Option UInt16 := do
  let low ← bytes[at_]?
  let high ← bytes[at_ + 1]?
  return low.toUInt16 ||| (high.toUInt16 <<< 8)

/-- The double word at an offset. -/
def read32? (bytes : Array UInt8) (at_ : Nat) : Option UInt32 := do
  let b0 ← bytes[at_]?
  let b1 ← bytes[at_ + 1]?
  let b2 ← bytes[at_ + 2]?
  let b3 ← bytes[at_ + 3]?
  return b0.toUInt32 ||| (b1.toUInt32 <<< 8) ||| (b2.toUInt32 <<< 16) ||| (b3.toUInt32 <<< 24)

/-- The instruction at an offset, its target being an offset. -/
def instrAt? (bytes : Array UInt8) (pc : Nat) : Option Instr := do
  let word := read16? bytes (pc + 1)
  let target := read32? bytes (pc + 1)
  let kind := bytes[pc + 1]? >>= Kind.ofByte?
  match (← bytes[pc]?) with
  | 0x01 => return .pop
  | 0x02 => return .dup
  | 0x04 => return .null
  | 0x0a => return .const (← word)
  | 0x10 => return .load (← word)
  | 0x11 => return .store (← word)
  | 0x20 => return .getStatic (← bytes[pc + 1]? >>= StaticSlot.ofByte?)
  | 0x90 => return .jump (← target)
  | 0x93 => return .ifNull (← target)
  | 0x94 => return .ifNonNull (← target)
  | 0xa2 => return .ret
  | 0xa3 => return .retVoid
  | 0xa4 => return .invokeSuper (← word)
  | 0xa5 => return .invokeSuperCtor (← word)
  | 0xa6 => return .invokeDispatch
  | 0xb1 => return .getField (← word)
  | 0xb2 => return .putField (← word)
  | 0xc0 => return .newArray
  | 0xc1 => return .arrayLoad
  | 0xc2 => return .arrayStore
  | 0xd0 => return .box (← kind)
  | 0xd1 => return .unbox (← kind)
  | 0xd2 => return .checkCast (← word)
  | 0xe0 => return .newThrowable (← word)
  | 0xe1 => return .throw
  | _ => none

/-- The instruction at an offset and the offset after it. -/
def decode (bytes : Array UInt8) (pc : Nat) : Option (Instr × Nat) :=
  (instrAt? bytes pc).map fun i => (i, pc + encodedLength i)

theorem lt_of_decode {bytes : Array UInt8} {pc next : Nat} {i : Instr}
    (h : decode bytes pc = some (i, next)) : pc < next := by
  obtain ⟨j, _, hj⟩ := Option.map_eq_some_iff.1 h
  cases hj
  have := encodedLength_pos i
  omega

/-- The first offset at which a stream does not decode, going on from an offset. -/
def malformedAt? (bytes : Array UInt8) (pc : Nat) : Option Nat :=
  if _h : pc < bytes.size then
    match _hd : decode bytes pc with
    | some (_, next) => malformedAt? bytes next
    | none => some pc
  else none
termination_by bytes.size - pc
decreasing_by
  have := lt_of_decode _hd
  omega

/-- The bytes of code, which are checked if asked for. -/
def assemble (check : Bool) (code : Code) : Except EmitError (Array UInt8) := do
  let bytes ← encode code
  if check then
    match malformedAt? bytes 0 with
    | some offset => .error (.malformed code.name offset)
    | none => .ok bytes
  else .ok bytes

end ByteCode

end Interpose
