import Interpose.Host.Value

/-!
# Faults

What can go wrong while operations run. Each cause is a constructor with what is known about it;
the wording is `HostError.message`.
-/

namespace Interpose

/-- An error raised by a script. -/
structure ScriptError where
  message : String
deriving DecidableEq, Repr, Inhabited

/-- The causes for which an operation ends without a result. -/
inductive HostError where
  | exception (e : HostException)
  /-- An operation that nothing implements was called. -/
  | unsupported (operation : String)
  /-- An operation without a body was run as it stands. -/
  | abstractMethod (operation : String)
  /-- Neither the script nor the host implements an operation. -/
  | unimplementedAbstract (operation typeName : String)
  | noSuchMethod (method : String)
  | noSuchField (field : String)
  | nullPointer (use : String)
  | typeMismatch (expected got : String)
  | indexOutOfBounds (index : Int) (length : Nat)
  /-- A type without objects of its own was to be allocated. -/
  | instantiation (type : String)
  | argumentCount (operation : String) (expected got : Nat)
  /-- A generated body did what no verified body does. -/
  | invalidCode (fault : String)
  | script (e : ScriptError)
deriving DecidableEq, Repr, Inhabited

namespace HostError

/-- The wording of an error. -/
def message : HostError → String
  | exception e => e.text
  | unsupported operation => "Unsupported operation: " ++ operation
  | abstractMethod operation => "Abstract method invoked: " ++ operation
  | unimplementedAbstract operation typeName =>
    "No implementation of " ++ operation ++ " found for " ++ typeName
  | noSuchMethod method => "No such method: " ++ method
  | noSuchField field => "No such field: " ++ field
  | nullPointer use => "Null pointer: " ++ use
  | typeMismatch expected got => "Type mismatch: expected " ++ expected ++ ", got " ++ got
  | indexOutOfBounds index length =>
    "Array index " ++ toString index ++ " out of bounds for length " ++ toString length
  | instantiation type => "Cannot instantiate " ++ type
  | argumentCount operation expected got =>
    operation ++ " expects " ++ toString expected ++ " arguments, got " ++ toString got
  | invalidCode fault => "Invalid generated code: " ++ fault
  | script e => e.message

/-- Whether callers have to declare what was raised. -/
def isChecked : HostError → Bool
  | exception e => e.kind.isChecked
  | _ => false

/-- What raising an exception ends an operation with. -/
def ofException (e : HostException) : HostError :=
  match e.kind with
  | .unsupportedOperation => unsupported e.message
  | _ => exception e

end HostError

/-- A host error as it leaves a script function: script errors stay as they are and others keep
their wording. -/
def ScriptError.ofHostError : HostError → ScriptError
  | .script e => e
  | e => ⟨e.message⟩

theorem ScriptError.message_ofHostError (e : HostError) :
    (ScriptError.ofHostError e).message = e.message := by cases e <;> rfl

end Interpose
