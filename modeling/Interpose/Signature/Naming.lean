import Interpose.Signature.ValueType
import Interpose.Signature.Digest

/-!
# Names of generated types and accessors

A generated type lies in the package of its base and is told from the types of other packages by
a digest of the base's descriptor. An accessor is told from its overloads by the result type in
its name.
-/

namespace Interpose

/-- The two layers of a generated subtype. -/
inductive Role where
  /-- Stubs for abstract operations, and storage for properties. -/
  | bridge
  /-- Dispatching operations and accessors to what they override. -/
  | proxy
deriving DecidableEq, Repr

/-- The word for a layer. -/
def Role.word : Role → String
  | bridge => "Bridge"
  | proxy => "Proxy"

namespace Naming

/-- Splits a qualified name at its last dot. -/
def splitLast (name : String) : Option String × String :=
  let reversed := name.toList.reverse
  let simple := String.ofList (reversed.takeWhile (· != '.')).reverse
  match reversed.dropWhile (· != '.') with
  | [] => (none, simple)
  | _ :: package => (some (String.ofList package.reverse), simple)

/-- A qualified name without its package. -/
def simple (name : String) : String := (splitLast name).2

/-- How many bytes of the digest a generated name keeps. -/
def digestBytes : Nat := 16

/-- The name of a layer generated for a base type. -/
def layer (base : String) (role : Role) : String :=
  let digest := Digest.sha256 (ValueType.reference base).descriptor.toUTF8.toList
  let (package, simple) := splitLast base
  let name := simple ++ "_" ++ role.word ++ "_" ++ Digest.hex (digest.take digestBytes)
  match package with
  | some package => package ++ "." ++ name
  | none => name

/-- A type as a part of a name, with an underscore for each separator. -/
def flattened (t : ValueType) : String :=
  t.text.map fun c => if c = '.' ∨ c = '[' ∨ c = ']' ∨ c = ';' then '_' else c

/-- What the name of every accessor begins with. -/
def accessorMark : String := "super$"

/-- The name of the accessor that runs what an operation overrides. -/
def accessor (name : String) (returns : ValueType) : String :=
  accessorMark ++ name ++ "$" ++ flattened returns

end Naming

end Interpose
