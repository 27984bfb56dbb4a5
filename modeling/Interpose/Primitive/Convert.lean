import Interpose.Primitive.Basic
import Interpose.Primitive.Binary

/-!
# Conversion between primitive kinds

Integral kinds convert through the integer they denote, truncating to the width of the target. A
floating value is held within the range of `long` or `int`, and kinds narrower than `int` then
truncate that `int`. A boolean converts to nothing but itself.
-/

namespace Interpose.Primitive

/-- The integer that an integral primitive denotes. -/
def toInt? : Primitive → Option Int
  | byte v => some v.toInt
  | char v => some v.toNat
  | short v => some v.toInt
  | int v => some v.toInt
  | long v => some v.toInt
  | boolean _ | float _ | double _ => none

/-- An integer as a primitive of a kind: its low bits for an integral kind, the nearest pattern
for a floating one. -/
def ofInt (v : Int) : Kind → Option Primitive
  | .boolean => none
  | .byte => some (byte (Int8.ofInt v))
  | .char => some (char (UInt16.ofInt v))
  | .short => some (short (Int16.ofInt v))
  | .int => some (int (Int32.ofInt v))
  | .long => some (long (Int64.ofInt v))
  | .float => some (float (UInt32.ofNat (BinaryFormat.single.ofInt v)))
  | .double => some (double (UInt64.ofNat (BinaryFormat.double.ofInt v)))

/-- A floating pattern as a primitive of a kind. -/
def ofPattern (f : BinaryFormat) (bits : Nat) : Kind → Option Primitive
  | .float => some (float (UInt32.ofNat (f.convert .single bits)))
  | .double => some (double (UInt64.ofNat (f.convert .double bits)))
  | .long => ofInt (f.toIntWithin Int64.minValue.toInt Int64.maxValue.toInt bits) .long
  | kind => ofInt (f.toIntWithin Int32.minValue.toInt Int32.maxValue.toInt bits) kind

/-- A primitive as another kind; a value of the kind asked for stays as it is. -/
def convert (p : Primitive) (kind : Kind) : Option Primitive :=
  if p.kind = kind then some p else
    match p with
    | boolean _ => none
    | float b => ofPattern .single b.toNat kind
    | double b => ofPattern .double b.toNat kind
    | byte v => ofInt v.toInt kind
    | char v => ofInt v.toNat kind
    | short v => ofInt v.toInt kind
    | int v => ofInt v.toInt kind
    | long v => ofInt v.toInt kind

@[simp] theorem convert_self (p : Primitive) : p.convert p.kind = some p := by simp [convert]

end Interpose.Primitive
