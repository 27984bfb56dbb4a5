/-!
# Modifiers

A set of the six modifiers of a declaration, as bits of a word.
-/

namespace Interpose

/-- A set of modifiers. -/
structure Modifiers where
  bits : UInt16
deriving DecidableEq, Inhabited

namespace Modifiers

/-- No modifier: the declaration is visible in its package. -/
def none : Modifiers := ⟨0⟩
/-- Visible everywhere. -/
def «public» : Modifiers := ⟨0x0001⟩
/-- Visible in the declaring type only. -/
def «private» : Modifiers := ⟨0x0002⟩
/-- Visible in subtypes. -/
def «protected» : Modifiers := ⟨0x0004⟩
/-- Without a receiver. -/
def static : Modifiers := ⟨0x0008⟩
/-- Closed to redefinition. -/
def final : Modifiers := ⟨0x0010⟩
/-- Without a body. -/
def abstract : Modifiers := ⟨0x0400⟩

/-- The modifiers of either set. -/
def union (a b : Modifiers) : Modifiers := ⟨a.bits ||| b.bits⟩

instance : OrOp Modifiers := ⟨union⟩

/-- Whether a set has every modifier of another. -/
def contains (a b : Modifiers) : Bool := a.bits &&& b.bits == b.bits

/-- A set without the modifiers of another. -/
def without (a b : Modifiers) : Modifiers := ⟨a.bits &&& ~~~b.bits⟩

/-- Whether a declaration is visible everywhere. -/
def isPublic (m : Modifiers) : Bool := m.contains «public»
/-- Whether a declaration is visible in its type only. -/
def isPrivate (m : Modifiers) : Bool := m.contains «private»
/-- Whether a declaration is visible in subtypes. -/
def isProtected (m : Modifiers) : Bool := m.contains «protected»
/-- Whether an operation has no receiver. -/
def isStatic (m : Modifiers) : Bool := m.contains static
/-- Whether a declaration is closed to redefinition. -/
def isFinal (m : Modifiers) : Bool := m.contains final
/-- Whether a declaration has no body. -/
def isAbstract (m : Modifiers) : Bool := m.contains abstract

/-- Whether a declaration has none of the three visibilities. -/
def isPackage (m : Modifiers) : Bool :=
  m.bits &&& («public» ||| «private» ||| «protected»).bits == 0

/-- Every modifier with its word, in the order in which they are written. -/
def words : List (Modifiers × String) :=
  [(«public», "public"), («protected», "protected"), («private», "private"), (static, "static"),
    (final, "final"), (abstract, "abstract")]

/-- The words of a set, separated by spaces. -/
def text (m : Modifiers) : String :=
  " ".intercalate ((words.filter fun w => m.contains w.1).map (·.2))

/-- The modifier that a word names. -/
def ofWord? (word : String) : Option Modifiers := (words.find? (·.2 == word)).map (·.1)

end Modifiers

end Interpose
