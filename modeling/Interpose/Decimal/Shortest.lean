/-!
# Shortest decimals

The decimal with the fewest digits among those that a binary value's rounding interval contains,
and of those the nearest one. Everything is compared as natural numbers over a common scale, so
nothing is lost.
-/

namespace Interpose

/-- The number `coefficient * 10 ^ exponent`. -/
structure Decimal where
  coefficient : Nat
  exponent : Int
deriving DecidableEq

/-- A positive value `m * 2 ^ q` with the interval of numbers that round to it. The interval ends
halfway to each neighbour, except that the neighbour below is half as far when `closeBelow`. -/
structure RoundingInterval where
  m : Nat
  q : Int
  closeBelow : Bool
deriving DecidableEq

namespace RoundingInterval

/-- The value in quarters of its last place. -/
def middle (v : RoundingInterval) : Nat := 4 * v.m

/-- The lower end in quarters of the last place. -/
def low (v : RoundingInterval) : Nat := 4 * v.m - if v.closeBelow then 1 else 2

/-- The upper end in quarters of the last place. -/
def high (v : RoundingInterval) : Nat := 4 * v.m + 2

/-- What a count of quarters of the last place is multiplied by before it is compared with a
count of steps `10 ^ grid`. -/
def quarterScale (v : RoundingInterval) (grid : Int) : Nat :=
  Nat.pow 2 (v.q - 2).toNat * Nat.pow 10 (-grid).toNat

/-- What a count of steps `10 ^ grid` is multiplied by before it is compared with a count of
quarters of the last place. -/
def stepScale (v : RoundingInterval) (grid : Int) : Nat :=
  Nat.pow 10 grid.toNat * Nat.pow 2 (2 - v.q).toNat

/-- Whether `steps * 10 ^ grid` rounds to the value: the ends belong to the interval exactly when
the significand is even. -/
def contains (v : RoundingInterval) (grid : Int) (steps : Nat) : Bool :=
  let point := steps * v.stepScale grid
  let low := v.low * v.quarterScale grid
  let high := v.high * v.quarterScale grid
  if v.m % 2 = 0 then low ≤ point && point ≤ high else low < point && point < high

/-- The nearest point of a decimal grid that rounds to the value, looked for on both sides of it;
of two points equally near the upper one is taken. -/
def nearest? (v : RoundingInterval) (grid : Int) : Option Decimal :=
  let exact := v.middle * v.quarterScale grid
  let step := v.stepScale grid
  let below := exact / step
  match v.contains grid below, v.contains grid (below + 1) with
  | true, true => some ⟨if 2 * (exact % step) < step then below else below + 1, grid⟩
  | true, false => some ⟨below, grid⟩
  | false, true => some ⟨below + 1, grid⟩
  | false, false => none

/-- The exponent of the leading decimal digit, from the exponent of the leading binary one. -/
def leading (v : RoundingInterval) : Int :=
  let estimate := ((v.m.log2 + v.q) * 30103).fdiv 100000
  if v.stepScale (estimate + 1) ≤ v.middle * v.quarterScale (estimate + 1) then estimate + 1
  else estimate

/-- Tries grids of rising fineness, at most `tries` of them, and falls back on the last one. -/
def search (v : RoundingInterval) : Nat → Int → Decimal
  | 0, grid => ⟨v.middle * v.quarterScale grid / v.stepScale grid, grid⟩
  | tries + 1, grid =>
    match v.nearest? grid with
    | some d => d
    | none => v.search tries (grid - 1)

end RoundingInterval

namespace Decimal

/-- A decimal without trailing zeros in its coefficient, dropping at most `limit` of them. -/
def strip : Nat → Decimal → Decimal
  | 0, d => d
  | limit + 1, d =>
    if d.coefficient ≠ 0 ∧ d.coefficient % 10 = 0 then
      strip limit ⟨d.coefficient / 10, d.exponent + 1⟩
    else d

/-- The shortest decimal that rounds to a value; seventeen digits are enough for either binary
format. -/
def shortest (v : RoundingInterval) : Decimal :=
  strip 17 (v.search 17 v.leading)

/-- The digits of the coefficient. -/
def digits (d : Decimal) : List Char := (Nat.repr d.coefficient).toList

/-- The exponent of the first digit. -/
def scale (d : Decimal) : Int := d.exponent + d.digits.length - 1

/-- The number without an exponent, and without a point when it is whole. -/
def positional (d : Decimal) : List Char :=
  let ds := d.digits
  if 0 ≤ d.exponent then ds ++ List.replicate d.exponent.toNat '0'
  else
    let places := (-d.exponent).toNat
    if places < ds.length then ds.take (ds.length - places) ++ '.' :: ds.drop (ds.length - places)
    else '0' :: '.' :: List.replicate (places - ds.length) '0' ++ ds

/-- The number with one digit before the point and an exponent. -/
def scientific (d : Decimal) : List Char :=
  let mantissa := match d.digits with
    | first :: second :: rest => first :: '.' :: second :: rest
    | ds => ds
  mantissa ++ 'e' :: (toString d.scale).toList

end Decimal

end Interpose
