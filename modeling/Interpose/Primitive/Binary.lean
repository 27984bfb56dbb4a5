/-!
# Binary floating-point patterns

A pattern of a binary interchange format stands for a sign and either `m * 2 ^ q`, an infinity or
a NaN. Reading a pattern and rounding an exact value to the nearest pattern, ties to the even
one, are both exact in natural numbers.
-/

namespace Interpose

/-- A binary interchange format: how many fraction and how many exponent bits it has. -/
structure BinaryFormat where
  fraction : Nat
  exponent : Nat
deriving DecidableEq

namespace BinaryFormat

/-- The 32-bit format. -/
def single : BinaryFormat := ⟨23, 8⟩

/-- The 64-bit format. -/
def double : BinaryFormat := ⟨52, 11⟩

/-- The exponent of the least positive value. -/
def leastExponent (f : BinaryFormat) : Int := 2 - (Nat.pow 2 (f.exponent - 1) + f.fraction : Nat)

/-- The pattern of positive infinity, above every finite one. -/
def infinity (f : BinaryFormat) : Nat := (Nat.pow 2 f.exponent - 1) * Nat.pow 2 f.fraction

/-- The bit that holds the sign. -/
def signBit (f : BinaryFormat) : Nat := Nat.pow 2 (f.fraction + f.exponent)

/-- The first bit of a fraction, set in every quiet NaN. -/
def quietBit (f : BinaryFormat) : Nat := Nat.pow 2 (f.fraction - 1)

/-- A pattern with its sign put in front. -/
def withSign (f : BinaryFormat) (negative : Bool) (magnitude : Nat) : Nat :=
  if negative then f.signBit + magnitude else magnitude

end BinaryFormat

/-- What the magnitude of a pattern stands for. -/
inductive Magnitude where
  /-- The value `m * 2 ^ q`. -/
  | finite (m : Nat) (q : Int)
  | infinite
  /-- Not a number, with its fraction bits. -/
  | nan (payload : Nat)
deriving DecidableEq

/-- A pattern taken apart. -/
structure Reading where
  negative : Bool
  magnitude : Magnitude
deriving DecidableEq

namespace BinaryFormat

/-- Takes a pattern apart; patterns without exponent bits are the subnormal values. -/
def read (f : BinaryFormat) (bits : Nat) : Reading :=
  let fractionBits := bits % Nat.pow 2 f.fraction
  let biased := bits / Nat.pow 2 f.fraction % Nat.pow 2 f.exponent
  let negative := bits / f.signBit % 2 == 1
  if biased = Nat.pow 2 f.exponent - 1 then
    ⟨negative, if fractionBits = 0 then .infinite else .nan fractionBits⟩
  else if biased = 0 then
    ⟨negative, .finite fractionBits f.leastExponent⟩
  else
    ⟨negative, .finite (Nat.pow 2 f.fraction + fractionBits) (f.leastExponent + (biased - 1))⟩

/-- The quotient by a power of two, rounded to the nearest whole number and a tie to the even
one. -/
def shiftRightEven (m shift : Nat) : Nat :=
  let unit := Nat.pow 2 shift
  let whole := m / unit
  let rest := 2 * (m % unit)
  if rest > unit ∨ (rest = unit ∧ whole % 2 = 1) then whole + 1 else whole

/-- The magnitude pattern nearest to `m * 2 ^ q`. Its last place is the value's leading place less
the fraction width, but never below the least exponent; a significand that rounds up to the next
power of two carries into the exponent bits, and what reaches infinity stays there. -/
def round (f : BinaryFormat) (m : Nat) (q : Int) : Nat :=
  if m = 0 then 0 else
    let place : Int := max f.leastExponent (m.log2 + q - f.fraction)
    let significand := if place ≤ q then m * Nat.pow 2 (q - place).toNat
      else shiftRightEven m (place - q).toNat
    min f.infinity ((place - f.leastExponent).toNat * Nat.pow 2 f.fraction + significand)

/-- The pattern nearest to an integer. -/
def ofInt (f : BinaryFormat) (v : Int) : Nat :=
  f.withSign (v < 0) (f.round v.natAbs 0)

/-- The pattern of another format nearest to a pattern of this one. A NaN keeps its sign and its
leading payload bits and becomes quiet. -/
def convert (f g : BinaryFormat) (bits : Nat) : Nat :=
  let r := f.read bits
  g.withSign r.negative <|
    match r.magnitude with
    | .finite m q => g.round m q
    | .infinite => g.infinity
    | .nan payload =>
      let moved := if f.fraction ≤ g.fraction then payload * Nat.pow 2 (g.fraction - f.fraction)
        else payload / Nat.pow 2 (f.fraction - g.fraction)
      g.infinity + (moved ||| g.quietBit)

/-- The integer part of a pattern held between two bounds; a NaN counts as zero. -/
def toIntWithin (f : BinaryFormat) (low high : Int) (bits : Nat) : Int :=
  let r := f.read bits
  let signed (v : Nat) : Int := if r.negative then -(v : Int) else v
  match r.magnitude with
  | .nan _ => 0
  | .infinite => if r.negative then low else high
  | .finite m q =>
    let whole := if 0 ≤ q then m * Nat.pow 2 q.toNat else m / Nat.pow 2 (-q).toNat
    max low (min high (signed whole))

end BinaryFormat

end Interpose
