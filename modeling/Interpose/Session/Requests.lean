import Interpose.Session.Conversions
import Interpose.Session.Declarations
import Interpose.Session.Emission
import Interpose.Session.Objects
import Interpose.Session.Queries
import Interpose.Session.Settings
import Interpose.Session.Subtypes

/-!
# Requests

A request starts a session of its own: it gives options, declares types and script types, and then
holds one command or several. A command that is refused does not end the session.
-/

namespace Interpose

namespace Command

/-- The commands by name. -/
def all : List (String × (Tree → Command Tree)) :=
  onValues ++ onOptions ++ onDeclarations ++ onTypes ++ onObjects ++ onSubtypes ++ onEmission

/-- Carries a command out. -/
def perform (t : Tree) : Command Tree := do
  let name ← strOf t "op"
  match all.lookup name with
  | some command => command t
  | none => malformed name

/-- Declares the types and the script types that a request lists. -/
def prepare (t : Tree) : Command Unit := do
  (t.itemsOf "types").forM declareType
  (t.itemsOf "scripts").forM declareScript

end Command

namespace Session

/-- The fields of an answer, with what was logged if anything was. -/
def answerTree (result : Except Refusal Tree) (log : List String) : Tree :=
  let logged := if log.isEmpty then [] else [("log", Tree.strs log)]
  match result with
  | .ok t => .node (("ok", t) :: logged)
  | .error e =>
    match e.tree with
    | .node fields => .node (fields ++ logged)
    | t => t

/-- Answers a command, with what is logged meanwhile. -/
def answer (t : Tree) (s : Session) : Tree × Session :=
  let (result, s) := (ExceptT.run (Command.perform t)).run { s with world := { s.world with log := #[] } }
  (answerTree result s.world.log.toList, s)

/-- Answers commands one after the other. -/
def answerAll : List Tree → Session → List Tree
  | [], _ => []
  | t :: rest, s =>
    let (a, s) := answer t s
    a :: answerAll rest s

/-- The session that a request starts with. -/
def start (t : Tree) : Except Refusal Session :=
  match Command.optionsOf (t.field "options") with
  | .error e => .error (.config e)
  | .ok options =>
    match (ExceptT.run (Command.prepare t)).run { world := World.initial options } with
    | (.ok _, s) => .ok s
    | (.error e, _) => .error e

/-- Answers a request. -/
def respond (t : Tree) : Tree :=
  match start t with
  | .error e => e.tree
  | .ok s =>
    if t.has "steps" then .node [("steps", .list (answerAll (t.itemsOf "steps") s))]
    else (answer t s).1

end Session

end Interpose
