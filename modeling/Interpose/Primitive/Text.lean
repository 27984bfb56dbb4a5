import Interpose.Primitive.Basic
import Interpose.Primitive.Binary
import Interpose.Decimal.Shortest

/-!
# Text of primitives

Primitives are written in two ways: as literals, with a suffix on the wide kinds and never an
exponent, and as tagged values for inspection, where very large and very small floating values
take an exponent and whole ones keep a zero after the point.
-/

namespace Interpose

/-- How the magnitude of a floating value is written. -/
structure FloatNotation where
  /-- Whole numbers keep a zero after the point. -/
  keepZero : Bool
  /-- The exponents of the first digit that are written without an exponent; none means all. -/
  positionalScales : Option (Int × Int)
deriving DecidableEq

namespace FloatNotation

/-- Literals are always positional and have no point when whole. -/
def literal : FloatNotation := ⟨false, none⟩

/-- Inspected values are positional from `0.0001` up to below `10 ^ 16`. -/
def inspected : FloatNotation := ⟨true, some (-4, 15)⟩

/-- The text of a positive decimal. -/
def text (n : FloatNotation) (d : Decimal) : List Char :=
  let isPositional := match n.positionalScales with
    | none => true
    | some (low, high) => low ≤ d.scale && d.scale ≤ high
  if isPositional then
    d.positional ++ if n.keepZero && 0 ≤ d.exponent then ['.', '0'] else []
  else d.scientific

/-- The text of a pattern: the sign of zero is kept, that of a NaN is not. -/
def ofPattern (n : FloatNotation) (f : BinaryFormat) (bits : Nat) : String :=
  let r := f.read bits
  let signed (s : List Char) := String.ofList (if r.negative then '-' :: s else s)
  match r.magnitude with
  | .nan _ => "NaN"
  | .infinite => signed ['i', 'n', 'f']
  | .finite m q =>
    if m = 0 then signed (if n.keepZero then ['0', '.', '0'] else ['0'])
    else
      let closeBelow := m == Nat.pow 2 f.fraction && f.leastExponent < q
      signed (n.text (.shortest ⟨m, q, closeBelow⟩))

end FloatNotation

/-- A number in hexadecimal, with zeros in front up to a width. -/
def hexPadded (width n : Nat) : String :=
  let ds := Nat.toDigits 16 n
  String.ofList (List.replicate (width - ds.length) '0' ++ ds)

namespace Primitive

/-- The text of a truth value. -/
def boolText (b : Bool) : String := if b then "true" else "false"

/-- A primitive as a literal. -/
def literal : Primitive → String
  | boolean b => boolText b
  | byte v => toString v.toInt
  | char v => "\\u" ++ hexPadded 4 v.toNat
  | short v => toString v.toInt
  | int v => toString v.toInt
  | long v => toString v.toInt ++ "L"
  | float b => FloatNotation.literal.ofPattern .single b.toNat ++ "f"
  | double b => FloatNotation.literal.ofPattern .double b.toNat ++ "d"

/-- A primitive with its kind, for inspection. -/
def inspect : Primitive → String
  | boolean b => "Boolean(" ++ boolText b ++ ")"
  | byte v => "Byte(" ++ toString v.toInt ++ ")"
  | char v => "Char(" ++ toString v.toNat ++ ")"
  | short v => "Short(" ++ toString v.toInt ++ ")"
  | int v => "Int(" ++ toString v.toInt ++ ")"
  | long v => "Long(" ++ toString v.toInt ++ ")"
  | float b => "Float(" ++ FloatNotation.inspected.ofPattern .single b.toNat ++ ")"
  | double b => "Double(" ++ FloatNotation.inspected.ofPattern .double b.toNat ++ ")"

end Primitive

end Interpose
