import Interpose.Session.Tree
import Interpose.Machine.Exec

/-!
# Sessions

A session keeps a world between commands. A command ends with an answer or with a refusal, and what
it changed before it was refused stays changed.
-/

namespace Interpose

/-- Why a command has no answer. -/
inductive Refusal where
  /-- Nothing of a sort is kept under the name that a field gives. -/
  | unset (sort : String)
  | malformed (what : String)
  | outOfSteps
  | host (e : HostError)
  | emit (e : EmitError)
  | harvest (e : HarvestError)
  | config (e : ConfigError)
  | platform (e : PlatformError)
deriving DecidableEq

/-- What a session keeps: the world, and the objects in the order in which they were first shown. -/
structure Session where
  world : World
  shown : List ObjectRef := []

/-- A command. -/
abbrev Command := ExceptT Refusal (StateM Session)

namespace Command

/-- Refuses because nothing is kept under a name. -/
def unset {α : Type} (sort : String) : Command α := throw (.unset sort)

/-- Refuses because a field is not of the right form. -/
def malformed {α : Type} (what : String) : Command α := throw (.malformed what)

/-- The world of the session. -/
def world : Command World := return (← get).world

/-- Replaces the world of the session. -/
def setWorld (w : World) : Command Unit := modify fun s => { s with world := w }

/-- The types of the session. -/
def types : Command TypeTable := return (← world).types

/-- A result, or a refusal of a form. -/
def ofExcept {ε α : Type} (refusal : ε → Refusal) : Except ε α → Command α
  | .ok a => return a
  | .error e => throw (refusal e)

/-- Runs a computation on the world. -/
def run {α : Type} (x : Action α) : Command α := do
  let (result, w) := x (← world)
  setWorld w
  match result with
  | .ok a => return a
  | .error (.raised e) => throw (.host e)
  | .error .exhausted => throw .outOfSteps

/-- Runs a computation that answers a request to a platform. -/
def runPlatform {α : Type} (x : PlatformAction α) : Command α := do
  match ← run x.run with
  | .ok a => return a
  | .error e => throw (.platform e)

/-- How deep calls nest in a session at most. -/
def depthLimit : Nat := 1000000

/-- How many instructions a generated body executes in a session at most: more than any body that
ends in reasonable time. -/
def stepLimit : Nat := 1000000000000000

/-- The way in which a session runs tasks. -/
def runner : Runner := exec stepLimit depthLimit

/-- What is kept under a name. -/
def lookup {α : Type} (sort : String) (names : Directory → Names α) (name : String) :
    Command α := do
  match (names (← world).names).get? name with
  | some a => return a
  | none => unset sort

/-- Changes what is kept under names. -/
def keep (f : Directory → Directory) : Command Unit := do
  let w ← world
  setWorld { w with names := f w.names }

/-- The type of an identity. -/
def hostType (id : TypeId) : Command HostType := do
  match (← types).lookup? id with
  | some t => return t
  | none => unset "type"

/-- The script object of an identity. -/
def scriptObject (id : InstanceId) : Command Instance := do
  match (← world).instances[id.index]? with
  | some i => return i
  | none => unset "instance"

/-- The item at a position of a list. -/
def nth {α : Type} (xs : List α) (i : Nat) : Command α :=
  match xs[i]? with
  | some a => return a
  | none => malformed "index"

/-- The type that a name stands for. -/
def typeNamed (name : String) : Command TypeId := do
  match (← world).typeNamed name with
  | .ok id => return id
  | .error sort => unset sort

/-- The loader that a name stands for. -/
def loaderNamed (name : String) : Command Loader := do
  match (← world).loaderNamed? name with
  | some loader => return loader
  | none => unset "loader"

end Command

end Interpose
