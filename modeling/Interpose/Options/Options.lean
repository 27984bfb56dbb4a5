import Interpose.Options.Document
import Interpose.Platform.Fault
import Interpose.Run.World
import Interpose.Text.Blank

/-!
# Reading and writing options

Options come from a document, from the environment, or from nowhere. In a document the word for a
back-end is written exactly; in the environment blanks around it and capitals do not matter.
-/

namespace Interpose

namespace BackendChoice

/-- Every choice. -/
def all : List BackendChoice := [auto, assembly, weave]

/-- The choice that a word names exactly. -/
def ofWord? (word : String) : Option BackendChoice := all.find? (·.word == word)

/-- The choice that a text names, whatever the blanks around it and its capitals. -/
def parse (text : String) : Except ConfigError BackendChoice :=
  let word := Text.lowerAscii (Text.trimBlank text)
  match ofWord? word with
  | some choice => .ok choice
  | none => .error (.invalidOptions
      ("Unknown backend '" ++ word ++ "'. Expected assembly, weave or auto"))

/-- The choice that an entry of a document stands for: a word, or the only key of a table, with
nothing under it. -/
def ofEntry? : Document.Entry → Option BackendChoice
  | .text word => ofWord? word
  | .table _ [(word, .table _ [])] => ofWord? word
  | .table _ [(word, .emptyList)] => ofWord? word
  | _ => none

@[simp] theorem ofWord?_word (c : BackendChoice) : ofWord? c.word = some c := by
  cases c <;> decide

end BackendChoice

namespace PlatformOptions

/-- Options with one of them set from a document. -/
def setEntry (options : PlatformOptions) (key : String) (e : Document.Entry) :
    Option PlatformOptions :=
  if key = "backend" then (BackendChoice.ofEntry? e).map fun b => { options with backend := b }
  else
    match e with
    | .truth b =>
      if key = "verify_code" then some { options with verifyCode := b }
      else if key = "trace_dispatch" then some { options with traceDispatch := b }
      else none
    | _ => none

/-- The options that a document gives; every key must be that of an option. -/
def ofDocument (text : String) : Except ConfigError PlatformOptions :=
  match (Document.read? text).bind fun es =>
      es.foldlM (fun options (key, e) => setEntry options key e) {} with
  | some options => .ok options
  | none => .error .unreadableOptions

/-- Options as a document. -/
def toDocument (options : PlatformOptions) : String :=
  let truth (b : Bool) := if b then "true" else "false"
  "backend = \"" ++ options.backend.word ++ "\"\nverify_code = " ++ truth options.verifyCode ++
    "\ntrace_dispatch = " ++ truth options.traceDispatch ++ "\n"

/-- The options for what the environment says about the back-end. -/
def ofEnvironment : Option String → Except ConfigError PlatformOptions
  | none => .ok {}
  | some text => (BackendChoice.parse text).map fun b => { backend := b }

/-- The options of a file, of which the contents or the reason why there are none is given. -/
def ofFile (path : String) : Except String String → Except ConfigError PlatformOptions
  | .ok text => ofDocument text
  | .error reason => .error (.invalidOptions (path ++ ": " ++ reason))

end PlatformOptions

end Interpose
