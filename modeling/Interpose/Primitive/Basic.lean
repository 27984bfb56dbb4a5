/-!
# Primitive kinds and values

The eight kinds of unstructured value, and the values themselves. A floating-point value is its
bit pattern, so equality distinguishes the two zeros and every NaN payload. `bits_kind_injective`
says that kind and bit pattern together determine a primitive.
-/

namespace Interpose

/-- The eight kinds of unstructured value that a typed slot can hold. -/
inductive Kind where
  | boolean | byte | char | short | int | long | float | double
deriving DecidableEq, Repr, Inhabited

namespace Kind

/-- Every kind, in declaration order. -/
def all : List Kind := [boolean, byte, char, short, int, long, float, double]

/-- The position of a kind in `all`. -/
def index : Kind → Nat
  | boolean => 0 | byte => 1 | char => 2 | short => 3
  | int => 4 | long => 5 | float => 6 | double => 7

/-- The kind at a position of `all`. -/
def ofIndex? (i : Nat) : Option Kind := all[i]?

/-- The word that names a kind in source form. -/
def keyword : Kind → String
  | boolean => "boolean" | byte => "byte" | char => "char" | short => "short"
  | int => "int" | long => "long" | float => "float" | double => "double"

/-- The kind that a source word names. -/
def ofKeyword? (word : String) : Option Kind := all.find? (·.keyword == word)

/-- The letter that stands for a kind in a descriptor. -/
def letter : Kind → Char
  | boolean => 'Z' | byte => 'B' | char => 'C' | short => 'S'
  | int => 'I' | long => 'J' | float => 'F' | double => 'D'

/-- The reference type that holds one value of a kind. -/
def boxName : Kind → String
  | boolean => "host.lang.Boolean" | byte => "host.lang.Byte"
  | char => "host.lang.Character" | short => "host.lang.Short"
  | int => "host.lang.Integer" | long => "host.lang.Long"
  | float => "host.lang.Float" | double => "host.lang.Double"

/-- The kind whose box a reference type name is. -/
def ofBoxName? (name : String) : Option Kind := all.find? (·.boxName == name)

@[simp] theorem ofIndex?_index (k : Kind) : ofIndex? k.index = some k := by cases k <;> rfl

theorem index_lt (k : Kind) : k.index < 8 := by cases k <;> decide

theorem index_injective {a b : Kind} (h : a.index = b.index) : a = b := by
  have := congrArg ofIndex? h
  simpa using this

@[simp] theorem ofBoxName?_boxName (k : Kind) : ofBoxName? k.boxName = some k := by
  cases k <;> decide

theorem letter_injective {a b : Kind} (h : a.letter = b.letter) : a = b := by
  revert h
  cases a <;> cases b <;> decide

end Kind

/-- A primitive value; the two floating kinds are held as their bit patterns. -/
inductive Primitive where
  | boolean (value : Bool)
  | byte (value : Int8)
  | char (value : UInt16)
  | short (value : Int16)
  | int (value : Int32)
  | long (value : Int64)
  | float (bits : UInt32)
  | double (bits : UInt64)
deriving DecidableEq, Inhabited

namespace Primitive

/-- The kind of a primitive. -/
def kind : Primitive → Kind
  | boolean _ => .boolean | byte _ => .byte | char _ => .char | short _ => .short
  | int _ => .int | long _ => .long | float _ => .float | double _ => .double

/-- The bit pattern of a primitive, extended with zeros. -/
def bits : Primitive → Nat
  | boolean b => b.toNat
  | byte v => v.toUInt8.toNat
  | char v => v.toNat
  | short v => v.toUInt16.toNat
  | int v => v.toUInt32.toNat
  | long v => v.toUInt64.toNat
  | float b => b.toNat
  | double b => b.toNat

/-- The value a slot of a kind holds before anything is stored in it. -/
def zero : Kind → Primitive
  | .boolean => boolean false | .byte => byte 0 | .char => char 0 | .short => short 0
  | .int => int 0 | .long => long 0 | .float => float 0 | .double => double 0

@[simp] theorem kind_zero (k : Kind) : (zero k).kind = k := by cases k <;> rfl

theorem bits_kind_injective {p q : Primitive} (hk : p.kind = q.kind) (hb : p.bits = q.bits) :
    p = q := by
  cases p <;> cases q <;> simp only [kind, reduceCtorEq] at hk <;> simp only [bits] at hb
  case boolean a b => cases a <;> cases b <;> simp_all
  case byte a b =>
    have := UInt8.toNat_inj.1 hb
    cases a; cases b; simp_all
  case char a b => exact congrArg char (UInt16.toNat_inj.1 hb)
  case short a b =>
    have := UInt16.toNat_inj.1 hb
    cases a; cases b; simp_all
  case int a b =>
    have := UInt32.toNat_inj.1 hb
    cases a; cases b; simp_all
  case long a b =>
    have := UInt64.toNat_inj.1 hb
    cases a; cases b; simp_all
  case float a b => exact congrArg float (UInt32.toNat_inj.1 hb)
  case double a b => exact congrArg double (UInt64.toNat_inj.1 hb)

end Primitive

end Interpose
