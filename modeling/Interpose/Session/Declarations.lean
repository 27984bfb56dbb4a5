import Interpose.Session.Body
import Interpose.Session.Keeping
import Interpose.Session.Settings

/-!
# Commands that declare

Types, script types, loaders, dispatchers and platforms are declared under names.
-/

namespace Interpose.Command

/-- Declares a loader: a child of another one, or a root. -/
def declareLoader (t : Tree) : Command Unit := do
  let key ← strOf t "as"
  let parent ← match t.given? "parent" with
    | none => pure none
    | some x => do pure (some (← loaderNamed (← str x)))
  let (loader, w) := (← world).addLoader ((t.strOf? "name").getD key) parent
  setWorld w
  keep fun n => { n with loaders := n.loaders.put key loader }

/-- Declares a dispatcher that runs a body. -/
def declareDispatcher (t : Tree) : Command Unit := do
  let key ← strOf t "as"
  let body ← expr (t.field "body")
  let (d, w) := (← world).addDispatcher (.custom body.dispatcher)
  setWorld w
  keep fun n => { n with dispatchers := n.dispatchers.put key d }

/-- Declares a platform with options. -/
def declarePlatform (t : Tree) : Command Unit := do
  let key ← strOf t "as"
  let options ← ofExcept .config (optionsOf t)
  let (p, w) := (← world).addPlatform options
  setWorld w
  keep fun n => { n with platforms := n.platforms.put key p }

/-- Whether a loader descends from another one. -/
def descends (t : Tree) : Command Tree := do
  let a ← loaderOf t "a"
  let b ← loaderOf t "b"
  return .bool (a.descendsFrom b)

/-- A command that declares and answers nothing more. -/
def declaring (declare : Tree → Command Unit) (t : Tree) : Command Tree := do
  declare t
  return done

/-- The commands that declare. -/
def onDeclarations : List (String × (Tree → Command Tree)) :=
  [("declare_type", declaring declareType), ("declare_script", declaring declareScript),
    ("declare_loader", declaring declareLoader),
    ("declare_dispatcher", declaring declareDispatcher),
    ("declare_platform", declaring declarePlatform), ("descends", descends)]

end Interpose.Command
