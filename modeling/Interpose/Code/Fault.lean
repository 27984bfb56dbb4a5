import Interpose.Host.Types

/-!
# Faults of code

What is wrong with code that a back-end refuses, with the wording of each cause.
-/

namespace Interpose

/-- The sorts of constants that instructions ask for. -/
inductive ConstantSort where
  | literal
  | field
  | type
  | method
  | constructor
  | throwable
deriving DecidableEq, Repr

/-- The word for a sort of constants. -/
def ConstantSort.word : ConstantSort → String
  | literal => "literal"
  | field => "field"
  | type => "type"
  | method => "method"
  | constructor => "constructor"
  | throwable => "throwable"

/-- What can be wrong at an instruction. -/
inductive CodeFault where
  | emptyBody
  | fallsOffEnd
  | inconsistentDepth (known depth : Nat)
  | localOutOfRange (index : UInt16)
  | constantOutOfRange (index : UInt16)
  | wrongConstant (expected : ConstantSort)
  | stackUnderflow
  | targetOutOfRange (target : UInt32)
deriving DecidableEq

/-- The wording of a fault. -/
def CodeFault.message : CodeFault → String
  | emptyBody => "empty body"
  | fallsOffEnd => "control falls off the end"
  | inconsistentDepth known depth =>
    "inconsistent stack depth " ++ toString known ++ " vs " ++ toString depth
  | localOutOfRange index => "local " ++ toString index.toNat ++ " out of range"
  | constantOutOfRange index => "constant #" ++ toString index.toNat ++ " out of range"
  | wrongConstant expected => "constant is not a " ++ expected.word
  | stackUnderflow => "stack underflow"
  | targetOutOfRange target => "branch target " ++ toString target.toNat ++ " out of range"

/-- Why a class cannot be extended. -/
inductive SuperclassFlaw where
  | isInterface
  | isFinal
  | isNotPublic
deriving DecidableEq, Repr

/-- The wording of a flaw. -/
def SuperclassFlaw.message : SuperclassFlaw → String
  | isInterface => "it is an interface"
  | isFinal => "it is final"
  | isNotPublic => "it is not public"

/-- The causes for which a class is not defined. -/
inductive EmitError where
  | unmarkedLabel (code : String) (label : Nat)
  | invalidCode (code : String) (pc : Nat) (fault : CodeFault)
  | constantPoolOverflow (code : String)
  | invalidSuperclass (typeName : String) (flaw : SuperclassFlaw)
  | notAnInterface (typeName : String)
  | duplicateMethod (typeName method : String)
  | malformed (code : String) (offset : Nat)
deriving DecidableEq

/-- The wording of an error. -/
def EmitError.message : EmitError → String
  | unmarkedLabel code label =>
    "Label " ++ toString label ++ " used but never marked in " ++ code
  | invalidCode code pc fault =>
    "Invalid code in " ++ code ++ " at " ++ toString pc ++ ": " ++ fault.message
  | constantPoolOverflow code => "Constant pool overflow in " ++ code
  | invalidSuperclass typeName flaw => "Cannot extend " ++ typeName ++ ": " ++ flaw.message
  | notAnInterface typeName => typeName ++ " is not an interface"
  | duplicateMethod typeName method => "Duplicate method " ++ typeName ++ "." ++ method
  | malformed code offset =>
    "Malformed byte code in " ++ code ++ " at offset " ++ toString offset

end Interpose
