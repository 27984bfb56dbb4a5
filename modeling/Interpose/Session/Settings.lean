import Interpose.Session.Keeping
import Interpose.Options.Options

/-!
# Commands on options

Options are read from the fields of a command, from a document, from the environment or from a file.
-/

namespace Interpose.Command

/-- Options as a tree. -/
def optionsTree (o : PlatformOptions) : Tree :=
  .node [("backend", .str o.backend.word), ("verify_code", .bool o.verifyCode),
    ("trace_dispatch", .bool o.traceDispatch)]

/-- The choice of a back-end that a field names; a missing one is automatic. -/
def backendOf (t : Tree) : Except ConfigError BackendChoice :=
  match t.strOf? "backend" with
  | some text => BackendChoice.parse text
  | none => .ok .auto

/-- The options that the fields of a tree give. -/
def optionsOf (t : Tree) : Except ConfigError PlatformOptions :=
  (backendOf t).map fun b => ⟨b, t.boolOf "verify_code" true, t.boolOf "trace_dispatch" false⟩

/-- How the fields of a command ask for classes to be defined. -/
def emitterOf (t : Tree) : Command Emitter := do
  return ⟨(← ofExcept .config (backendOf t)).resolve, t.boolOf "verify" true⟩

/-- The back-end that a text names. -/
def backend (t : Tree) : Command Tree := do
  let choice ← ofExcept .config (BackendChoice.parse (← strOf t "text"))
  return .node [("kind", .str choice.word), ("resolved", .str choice.resolve.name)]

/-- The options that a document gives, and whether they read back from the one they are written
to. -/
def optionsOfDocument (t : Tree) : Command Tree := do
  let o ← ofExcept .config (PlatformOptions.ofDocument (← strOf t "text"))
  let again := match PlatformOptions.ofDocument o.toDocument with
    | .ok read => decide (read = o)
    | .error _ => false
  return .node [("options", optionsTree o), ("round_trip", .bool again)]

/-- The document that options are written to. -/
def documentOfOptions (t : Tree) : Command Tree := do
  return .str (← ofExcept .config (optionsOf t)).toDocument

/-- The options for what the environment says. -/
def optionsOfEnvironment (t : Tree) : Command Tree := do
  return optionsTree (← ofExcept .config (PlatformOptions.ofEnvironment (t.strOf? "value")))

/-- The options of a file; without a text there is no file. -/
def optionsOfFile (t : Tree) : Command Tree := do
  let contents : Except String String := match t.strOf? "text" with
    | some text => .ok text
    | none => .error "No such file or directory (os error 2)"
  return optionsTree
    (← ofExcept .config (PlatformOptions.ofFile "no/such/options.toml" contents))

/-- The commands on options. -/
def onOptions : List (String × (Tree → Command Tree)) :=
  [("backend", backend), ("options_toml", optionsOfDocument),
    ("options_to_toml", documentOfOptions), ("options_env", optionsOfEnvironment),
    ("options_file", optionsOfFile)]

end Interpose.Command
