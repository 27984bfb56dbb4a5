import Interpose.Primitive.Convert
import Mathlib.Data.Int.ModEq

/-!
# Conversions between kinds of primitives

A primitive of an integral kind with `n` bits stands for the integers of one residue modulo `2 ^ n`. Converting
keeps the residue at the width of the target, so a conversion through a kind that is at least as wide as the target
is lost on it, whether the kinds have signs or not.
-/

namespace Interpose

/-- How many bits the values of an integral kind have. -/
def Kind.width? : Kind → Option Nat
  | byte => some 8
  | char | short => some 16
  | int => some 32
  | long => some 64
  | boolean | float | double => none

namespace Primitive

variable {p q : Primitive} {kind : Kind} {u v : Int} {n : Nat}

/-! ## Kinds -/

/-- An integer becomes a primitive of the kind that is asked for. -/
theorem kind_of_ofInt (h : ofInt v kind = some p) : p.kind = kind := by
  cases kind <;> cases h <;> rfl

/-- A floating pattern becomes a primitive of the kind that is asked for. -/
theorem kind_of_ofPattern {f : BinaryFormat} {bits : Nat} (h : ofPattern f bits kind = some p) : p.kind = kind := by
  cases kind with
  | boolean => cases h
  | float | double =>
      cases h
      rfl
  | byte | char | short | int | long => exact kind_of_ofInt h

/-- What comes out of a conversion is of the kind that is asked for. -/
theorem kind_of_convert (h : p.convert kind = some q) : q.kind = kind := by
  unfold convert at h
  split at h
  next hkind =>
    cases h
    exact hkind
  next =>
    cases p with
    | boolean _ => cases h
    | float _ | double _ => exact kind_of_ofPattern h
    | byte _ | char _ | short _ | int _ | long _ => exact kind_of_ofInt h

/-! ## Residues -/

/-- A primitive of an integral kind denotes an integer. -/
theorem exists_toInt? (h : p.kind.width? = some n) : ∃ v, p.toInt? = some v := by
  cases p <;> first | exact ⟨_, rfl⟩ | cases h

/-- A primitive is what its own integer becomes at its own kind. -/
theorem ofInt_toInt? (h : p.toInt? = some v) : ofInt v p.kind = some p := by
  cases p <;> cases h
  case byte v => exact congrArg (some <| byte ·) (Int8.ofInt_toInt v)
  case char v =>
    refine congrArg (some <| char ·) (UInt16.toNat_inj.1 ?_)
    have := v.toNat_lt
    simp [UInt16.ofInt]
    omega
  case short v => exact congrArg (some <| short ·) (Int16.ofInt_toInt v)
  case int v => exact congrArg (some <| int ·) (Int32.ofInt_toInt v)
  case long v => exact congrArg (some <| long ·) (Int64.ofInt_toInt v)

/-- A primitive that denotes an integer is converted as that integer. -/
theorem convert_eq_ofInt (h : p.toInt? = some v) (kind : Kind) : p.convert kind = ofInt v kind := by
  unfold convert
  split
  next hkind => rw [← hkind, ofInt_toInt? h]
  next => cases p <;> cases h <;> rfl

/-- What an integer becomes depends on its residue only. -/
theorem ofInt_congr (hwidth : kind.width? = some n) (h : u ≡ v [ZMOD 2 ^ n]) : ofInt u kind = ofInt v kind := by
  have hbmod (m : Nat) (hm : (m : Int) = 2 ^ n) : u.bmod m = v.bmod m := by
    rw [← Int.emod_bmod u, hm, h.eq, ← hm, Int.emod_bmod]
  cases kind <;> cases hwidth
  case byte => exact congrArg (some <| byte ·) (Int8.toInt_inj.1 (by simpa using hbmod _ rfl))
  case char =>
    refine congrArg (some <| char ·) ?_
    rw [UInt16.ofInt, UInt16.ofInt]
    exact congrArg (fun r : Int => UInt16.ofNat r.toNat) h
  case short => exact congrArg (some <| short ·) (Int16.toInt_inj.1 (by simpa using hbmod _ rfl))
  case int => exact congrArg (some <| int ·) (Int32.toInt_inj.1 (by simpa using hbmod _ rfl))
  case long => exact congrArg (some <| long ·) (Int64.toInt_inj.1 (by simpa using hbmod _ rfl))

/-- What an integer becomes at an integral kind is of that kind, and denotes an integer of the same residue. -/
theorem exists_ofInt (hwidth : kind.width? = some n) (v : Int) :
    ∃ q u, ofInt v kind = some q ∧ q.kind = kind ∧ q.toInt? = some u ∧ u ≡ v [ZMOD 2 ^ n] := by
  have hresidue (m : Nat) (hm : (m : Int) = 2 ^ n) : v.bmod m ≡ v [ZMOD 2 ^ n] := by
    rw [← hm]
    exact Int.bmod_emod
  cases kind <;> cases hwidth
  case byte => exact ⟨_, _, rfl, rfl, rfl, Int8.toInt_ofInt ▸ hresidue _ rfl⟩
  case char =>
    refine ⟨_, _, rfl, rfl, rfl, ?_⟩
    have hnonneg : 0 ≤ v % 2 ^ 16 := Int.emod_nonneg v (by decide)
    have hlt : v % 2 ^ 16 < 2 ^ 16 := Int.emod_lt_of_pos v (by decide)
    rw [UInt16.ofInt, UInt16.toNat_ofNat_of_lt' (by rw [UInt16.size]; omega), Int.toNat_of_nonneg hnonneg]
    exact Int.mod_modEq v _
  case short => exact ⟨_, _, rfl, rfl, rfl, Int16.toInt_ofInt ▸ hresidue _ rfl⟩
  case int => exact ⟨_, _, rfl, rfl, rfl, Int32.toInt_ofInt ▸ hresidue _ rfl⟩
  case long => exact ⟨_, _, rfl, rfl, rfl, Int64.toInt_ofInt ▸ hresidue _ rfl⟩

/-! ## Conversions one after the other -/

/-- A conversion through a kind that is at least as wide as the target comes to the direct one: the result is of the
target's kind and has the residue that the primitive has at the width of the target. If the kind in between is at least
as wide as that of the primitive, converting back gives the primitive. -/
theorem convert_through {through target : Kind} {k m : Nat} (hkind : p.kind.width? = some k)
    (hthrough : through.width? = some m) (htarget : target.width? = some n) (hle : n ≤ m) :
    ∃ q r v u, p.convert through = some q ∧ q.convert target = some r ∧ p.convert target = some r ∧
      r.kind = target ∧ p.toInt? = some v ∧ r.toInt? = some u ∧ u ≡ v [ZMOD 2 ^ n] ∧
      (k ≤ m → q.convert p.kind = some p) := by
  obtain ⟨v, hv⟩ := exists_toInt? hkind
  obtain ⟨q, w, hq, -, hw, hresidue⟩ := exists_ofInt hthrough v
  obtain ⟨r, u, hr, hrkind, hu, hresult⟩ := exists_ofInt htarget v
  have hback {kind : Kind} {l : Nat} (hwidth : kind.width? = some l) (hl : l ≤ m) :
      q.convert kind = ofInt v kind := by
    rw [convert_eq_ofInt hw]
    exact ofInt_congr hwidth (hresidue.of_dvd (pow_dvd_pow 2 hl))
  refine ⟨q, r, v, u, ?_, ?_, ?_, hrkind, hv, hu, hresult, fun hwide => ?_⟩
  · rw [convert_eq_ofInt hv, hq]
  · rw [hback htarget hle, hr]
  · rw [convert_eq_ofInt hv, hr]
  · rw [hback hkind hwide, ofInt_toInt? hv]

/-- The `short` minus one becomes the greatest `char`, which becomes minus one again. -/
theorem convert_through_char :
    (short (-1)).kind.width? = some 16 ∧ Kind.char.width? = some 16 ∧ Kind.short.width? = some 16 ∧
      ∃ q r v u, (short (-1)).convert .char = some q ∧ q.convert .short = some r ∧
        (short (-1)).convert .short = some r ∧ r.kind = .short ∧ (short (-1)).toInt? = some v ∧ r.toInt? = some u ∧
        u ≡ v [ZMOD 2 ^ 16] ∧ q.convert .short = some (short (-1)) ∧ q = char 0xffff := by
  obtain ⟨q, r, v, u, hq, hr, hdirect, hkind, hv, hu, hresidue, hback⟩ :=
    convert_through (show (short (-1)).kind.width? = some 16 from rfl) (show Kind.char.width? = some 16 from rfl)
      (show Kind.short.width? = some 16 from rfl) (Nat.le_refl 16)
  have hchar : some q = some (char 0xffff) := hq.symm.trans (by decide)
  exact ⟨rfl, rfl, rfl, q, r, v, u, hq, hr, hdirect, hkind, hv, hu, hresidue, hback (Nat.le_refl 16),
    Option.some.inj hchar⟩

end Primitive

end Interpose
