import Interpose.Host.Types

/-!
# The type hierarchy

A table of types, latest first. A type only names types that are older than itself, so every walk
towards supertypes goes down the table and ends.
-/

namespace Interpose

/-- Whether calls of a name with a number of arguments can reach an operation. -/
def Method.answers (m : Method) (name : String) (arity : Nat) : Bool :=
  m.isVirtual && m.name == name && m.params.length == arity

/-- The types that exist, latest first. -/
abbrev TypeTable := List HostType

namespace TypeTable

/-- The identity of the type that is added next. -/
def fresh (types : TypeTable) : TypeId := ⟨types.length⟩

/-- The type of an identity. -/
def lookup? (types : TypeTable) (id : TypeId) : Option HostType := types.find? (·.id == id)

/-- The name of a type. -/
def nameOf (types : TypeTable) (id : TypeId) : String :=
  match types.lookup? id with
  | some t => t.name
  | none => ""

/-- A type and its superclasses, the type itself first. -/
def lineage : TypeTable → TypeId → List HostType
  | [], _ => []
  | t :: older, id =>
    if t.id = id then
      t :: match t.superclass with
        | some parent => lineage older parent
        | none => []
    else lineage older id

/-- Adds a type and the interfaces that it extends to those already found, each before those it
extends; nothing is added twice. -/
def collect : TypeTable → TypeId → List HostType → List HostType
  | [], _, found => found
  | t :: older, id, found =>
    if t.id = id then
      if found.any (·.id == id) then found
      else t.interfaces.foldl (fun found i => collect older i found) (found ++ [t])
    else collect older id found

/-- Every interface of a type, its superclasses and their interfaces, in the order found. -/
def allInterfaces (types : TypeTable) (id : TypeId) : List HostType :=
  (types.lineage id).foldl
    (fun found t => t.interfaces.foldl (fun found i => types.collect i found) found) []

/-- Whether a type is, extends or implements the type of a name. -/
def isSubtypeOf (types : TypeTable) (id : TypeId) (name : String) : Bool :=
  name == objectName || (types.lineage id).any (·.name == name) ||
    (types.allInterfaces id).any (·.name == name)

/-- The operations that calls on a type are looked up in: those of its superclasses, then those
of its interfaces. -/
def methodsOf (types : TypeTable) (id : TypeId) : List Method :=
  (types.lineage id).flatMap (·.methods) ++ (types.allInterfaces id).flatMap (·.methods)

/-- The operation that a call of a slot reaches. -/
def findVirtual? (types : TypeTable) (id : TypeId) (slot : Slot) : Option Method :=
  (types.methodsOf id).find? fun m => m.isVirtual && m.occupies slot

/-- The first operation with a name and a number of parameters. -/
def findMethod? (types : TypeTable) (id : TypeId) (name : String) (arity : Nat) : Option Method :=
  (types.methodsOf id).find? (·.answers name arity)

/-- The field that a name stands for on objects of a type. -/
def findField? (types : TypeTable) (id : TypeId) (name : String) : Option Field :=
  ((types.lineage id).flatMap (·.fields)).find? (·.name == name)

/-- The generation record of the nearest dispatching layer. -/
def proxy? (types : TypeTable) (id : TypeId) : Option Generation :=
  ((types.lineage id).filterMap (·.generated)).find? (·.role == .proxy)

end TypeTable

end Interpose
