import Interpose.Host.Hierarchy
import Interpose.Text.Lowercase

/-!
# Property pairs

Interfaces that declare nothing but getters and setters stand for properties. `pair` checks that
each property has one getter and one setter of one type, and lists the properties by name.
-/

namespace Interpose

/-- The two ways of using a property. -/
inductive AccessorRole where
  | getter
  | setter
deriving DecidableEq, Repr

/-- The word for a way of using a property. -/
def AccessorRole.word : AccessorRole → String
  | getter => "getter"
  | setter => "setter"

/-- Why an operation is no accessor. -/
inductive AccessorFlaw where
  | getterTakesArguments
  | getterReturnsNothing
  | testReturnsNoBoolean
  | setterArity
  | setterReturnsValue
  | nameless
deriving DecidableEq, Repr

/-- The wording of a flaw. -/
def AccessorFlaw.message : AccessorFlaw → String
  | getterTakesArguments => "getter must take no arguments"
  | getterReturnsNothing => "getter must return a value"
  | testReturnsNoBoolean => "is-getter must return boolean"
  | setterArity => "setter must take exactly one argument"
  | setterReturnsValue => "setter must return void"
  | nameless => "name must start with get, is or set"

/-- The causes for which interfaces do not stand for properties. -/
inductive HarvestError where
  | notAProperty (method : String) (flaw : AccessorFlaw)
  | missingCounterpart (property : String) (missing : AccessorRole)
  | typeDisagreement (property : String) (getter setter : ValueType)
  | ambiguous (property : String) (accessor : AccessorRole)
deriving DecidableEq

/-- The wording of an error. -/
def HarvestError.message : HarvestError → String
  | notAProperty method flaw => method ++ " does not represent a property: " ++ flaw.message
  | missingCounterpart property missing =>
    "Property '" ++ property ++ "' has no " ++ missing.word
  | typeDisagreement property getter setter =>
    "Property '" ++ property ++ "' is read as " ++ getter.text ++ " but written as " ++ setter.text
  | ambiguous property accessor =>
    "Property '" ++ property ++ "' has more than one " ++ accessor.word

/-- A property with its accessors. -/
structure PropertyPair where
  name : String
  type : ValueType
  getter : Method
  setter : Method

/-- The field that holds the value of a property. -/
def PropertyPair.fieldName (p : PropertyPair) : String := "$__" ++ p.name

namespace Property

/-- The property that an accessor name stands for: what follows the verb, which must not be empty,
with its first letter in lower case. -/
def nameAfter? (verb accessor : String) : Option String :=
  let rest := accessor.toList.drop verb.length
  if verb.toList.isPrefixOf accessor.toList && !rest.isEmpty then
    some (Text.lowerFirst (String.ofList rest))
  else none

/-- Whether a type holds a truth value, raw or boxed. -/
def isTruthType : ValueType → Bool
  | .primitive .boolean => true
  | .reference name => name == Kind.boolean.boxName
  | _ => false

/-- What an operation is to the property that its name stands for. -/
def classify (m : Method) : Except HarvestError (AccessorRole × String) :=
  let fail (flaw : AccessorFlaw) := .error (.notAProperty m.text flaw)
  match nameAfter? "get" m.name with
  | some property =>
    if !m.params.isEmpty then fail .getterTakesArguments
    else if m.returns.isVoid then fail .getterReturnsNothing
    else .ok (.getter, property)
  | none =>
    match nameAfter? "is" m.name with
    | some property =>
      if !m.params.isEmpty then fail .getterTakesArguments
      else if !isTruthType m.returns then fail .testReturnsNoBoolean
      else .ok (.getter, property)
    | none =>
      match nameAfter? "set" m.name with
      | some property =>
        if m.params.length != 1 then fail .setterArity
        else if !m.returns.isVoid then fail .setterReturnsValue
        else .ok (.setter, property)
      | none => fail .nameless

/-- Accessors of one role by property name, in the order of the names. -/
abbrev Accessors := List (String × Method)

namespace Accessors

/-- The accessor of a property. -/
def get? (table : Accessors) (property : String) : Option Method :=
  (table.find? (·.1 == property)).map (·.2)

/-- Puts an accessor in its place. -/
def insert (property : String) (m : Method) : Accessors → Accessors
  | [] => [(property, m)]
  | (name, n) :: rest =>
    if property < name then (property, m) :: (name, n) :: rest
    else (name, n) :: insert property m rest

/-- Notes an accessor; a property has one of each role, which may be declared again. -/
def record (role : AccessorRole) (table : Accessors) (property : String) (m : Method) :
    Except HarvestError Accessors :=
  match table.get? property with
  | none => .ok (table.insert property m)
  | some n => if n.slot = m.slot then .ok table else .error (.ambiguous property role)

end Accessors

/-- Notes the accessors among a list of operations. -/
def gather : List Method → Accessors → Accessors → Except HarvestError (Accessors × Accessors)
  | [], getters, setters => .ok (getters, setters)
  | m :: rest, getters, setters => do
    match ← classify m with
    | (.getter, property) => gather rest (← getters.record .getter property m) setters
    | (.setter, property) => gather rest getters (← setters.record .setter property m)

/-- Pairs each getter with the setter of its property. -/
def pairUp (setters : Accessors) : Accessors → Except HarvestError (List PropertyPair)
  | [] => .ok []
  | (name, getter) :: rest =>
    match setters.get? name with
    | none => .error (.missingCounterpart name .setter)
    | some setter =>
      match setter.params with
      | written :: _ =>
        if written = getter.returns then do
          return ⟨name, getter.returns, getter, setter⟩ :: (← pairUp setters rest)
        else .error (.typeDisagreement name getter.returns written)
      | [] => .error (.missingCounterpart name .setter)

/-- The properties that a list of operations stands for. -/
def pair (methods : List Method) : Except HarvestError (List PropertyPair) := do
  let (getters, setters) ← gather methods [] []
  match setters.find? fun s => (getters.get? s.1).isNone with
  | some (name, _) => .error (.missingCounterpart name .getter)
  | none => pairUp setters getters

end Property

/-- The properties that interfaces stand for; operations without a receiver do not count. -/
def TypeTable.harvestProperties (types : TypeTable) (interfaces : List TypeId) :
    Except HarvestError (List PropertyPair) :=
  Property.pair <|
    (interfaces.filterMap types.lookup?).flatMap fun t =>
      t.methods.filter fun m => !m.modifiers.isStatic

end Interpose
