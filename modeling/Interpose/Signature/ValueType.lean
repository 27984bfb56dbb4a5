import Interpose.Primitive.Basic

/-!
# Value types

The static type of a parameter, a result or a field: nothing, a primitive kind, a reference type
by name, or an array. Types are ordered as they are listed here, kinds by position, names by
character and arrays by element.
-/

namespace Interpose

/-- The name of the reference type above every other. -/
def objectName : String := "host.lang.Object"

/-- The name of the type of texts. -/
def stringName : String := "host.lang.String"

/-- The name of the interface through which an object gives out what it is bound to. -/
def capabilityName : String := "host.lang.Bridge"

/-- The static type of a slot; `void` only describes results. -/
inductive ValueType where
  | void
  | primitive (kind : Kind)
  | reference (name : String)
  | array (element : ValueType)
deriving DecidableEq, Inhabited

namespace ValueType

/-- The reference type above every other. -/
def object : ValueType := reference objectName

/-- The kind of a primitive type. -/
def kind? : ValueType → Option Kind
  | primitive k => some k
  | _ => none

/-- Whether this is the type of no value. -/
def isVoid : ValueType → Bool
  | void => true
  | _ => false

/-- A type in source form. -/
def text : ValueType → String
  | void => "void"
  | primitive k => k.keyword
  | reference name => name
  | array element => element.text ++ "[]"

/-- A type with a number of array dimensions put around it. -/
def withDimensions (t : ValueType) : Nat → ValueType
  | 0 => t
  | n + 1 => array (withDimensions t n)

/-- Removes the pairs of brackets that end a reversed text and counts them. -/
def splitDimensions : List Char → List Char × Nat
  | ']' :: '[' :: rest =>
    let (name, n) := splitDimensions rest
    (name, n + 1)
  | name => (name, 0)

/-- The type that a text in source form names: a word for a primitive kind or for nothing, else
the name of a reference type, with a pair of brackets for each array dimension. -/
def ofText (text : String) : ValueType :=
  let (reversed, dimensions) := splitDimensions text.toList.reverse
  let name := String.ofList reversed.reverse
  let base := if name = "void" then void else
    match Kind.ofKeyword? name with
    | some k => primitive k
    | none => reference name
  base.withDimensions dimensions

/-- A name as descriptors write it, with a slash for each dot. -/
def descriptorName (name : String) : List Char :=
  name.toList.map fun c => if c = '.' then '/' else c

/-- The compact form of a type. -/
def descriptorChars : ValueType → List Char
  | void => ['V']
  | primitive k => [k.letter]
  | reference name => 'L' :: (descriptorName name ++ [';'])
  | array element => '[' :: element.descriptorChars

/-- The compact form of a type. -/
def descriptor (t : ValueType) : String := String.ofList t.descriptorChars

/-- The order of types, see the head of this module. -/
protected def compare : ValueType → ValueType → Ordering
  | void, void => .eq
  | void, _ => .lt
  | primitive _, void => .gt
  | primitive a, primitive b => Ord.compare a.index b.index
  | primitive _, _ => .lt
  | reference _, void => .gt
  | reference _, primitive _ => .gt
  | reference a, reference b => Ord.compare a b
  | reference _, array _ => .lt
  | array a, array b => ValueType.compare a b
  | array _, _ => .gt

instance : Ord ValueType := ⟨ValueType.compare⟩

end ValueType

/-- The compact form of a signature: the parameters in parentheses, then the result. -/
def signatureDescriptor (params : List ValueType) (returns : ValueType) : String :=
  String.ofList ('(' :: (params.flatMap ValueType.descriptorChars ++ ')' :: returns.descriptorChars))

end Interpose
