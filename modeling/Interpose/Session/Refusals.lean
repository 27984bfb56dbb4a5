import Interpose.Session.Basic

/-!
# Showing refusals

A refusal is shown as a node with the word for its cause and its wording. A cause that has a cause of
its own shows that too.
-/

namespace Interpose

/-- A node with the word for a cause and its wording. -/
def refusalTree (word message : String) : Tree :=
  .node [("error", .str word), ("message", .str message)]

/-- The word for an error of running. -/
def HostError.word : HostError → String
  | exception _ => "Exception"
  | unsupported _ => "Unsupported"
  | abstractMethod _ => "AbstractMethod"
  | unimplementedAbstract _ _ => "UnimplementedAbstract"
  | noSuchMethod _ => "NoSuchMethod"
  | noSuchField _ => "NoSuchField"
  | nullPointer _ => "NullPointer"
  | typeMismatch _ _ => "TypeMismatch"
  | indexOutOfBounds _ _ => "IndexOutOfBounds"
  | instantiation _ => "Instantiation"
  | argumentCount _ _ _ => "ArgumentCount"
  | invalidCode _ => "InvalidCode"
  | script _ => "Script"

/-- A wording without the number in the complaint that a bridge is bound already. -/
def withoutBridgeNumber (text : String) : String :=
  let complaint := ExceptionKind.illegalState.className ++ ": bridge "
  let rest := " is already bound"
  match Text.after? complaint text with
  | none => text
  | some shown =>
    let digits := shown.toList.takeWhile Char.isDigit
    if digits ≠ [] ∧ shown.toList.dropWhile Char.isDigit = rest.toList then complaint ++ "#" ++ rest
    else text

/-- An error of running as a tree. -/
def HostError.tree (e : HostError) : Tree :=
  let message := withoutBridgeNumber e.message
  match e with
  | exception x =>
    .node [("error", .str "Exception"), ("message", .str message),
      ("class", .str x.kind.className), ("checked", .bool x.kind.isChecked)]
  | e => refusalTree e.word message

/-- The word for an error of emitting. -/
def EmitError.word : EmitError → String
  | unmarkedLabel _ _ => "Emit.UnmarkedLabel"
  | invalidCode _ _ _ => "Emit.InvalidCode"
  | constantPoolOverflow _ => "Emit.ConstantPoolOverflow"
  | invalidSuperclass _ _ => "Emit.InvalidSuperclass"
  | notAnInterface _ => "Emit.NotAnInterface"
  | duplicateMethod _ _ => "Emit.DuplicateMethod"
  | malformed _ _ => "Emit.Malformed"

/-- An error of emitting as a tree. -/
def EmitError.tree (e : EmitError) : Tree := refusalTree e.word e.message

/-- The word for an error of harvesting. -/
def HarvestError.word : HarvestError → String
  | notAProperty _ _ => "Harvest.NotAProperty"
  | missingCounterpart _ _ => "Harvest.MissingCounterpart"
  | typeDisagreement _ _ _ => "Harvest.TypeDisagreement"
  | ambiguous _ _ => "Harvest.Ambiguous"

/-- An error of harvesting as a tree. -/
def HarvestError.tree (e : HarvestError) : Tree := refusalTree e.word e.message

/-- Why a subtype was not generated, as a tree. -/
def GenerationCause.tree : GenerationCause → Tree
  | emit e => e.tree
  | property e => e.tree

/-- The word for an error of configuration. -/
def ConfigError.word : ConfigError → String
  | missingDispatcher _ => "Config.MissingDispatcher"
  | dispatcherAlreadySet _ => "Config.DispatcherAlreadySet"
  | argumentCountMismatch _ _ => "Config.ArgumentCountMismatch"
  | notAnInterface _ => "Config.NotAnInterface"
  | noSuchConstructor _ _ => "Config.NoSuchConstructor"
  | notGenerated _ => "Config.NotGenerated"
  | unreadableOptions => "Config.Parse"
  | invalidOptions _ => "Config.Invalid"

/-- An error of configuration as a tree; what is wrong with unreadable options is not shown. -/
def ConfigError.tree : ConfigError → Tree
  | unreadableOptions => .node [("error", .str unreadableOptions.word)]
  | e => refusalTree e.word e.message

/-- Why a platform did not answer, as a tree. -/
def PlatformError.tree (e : PlatformError) : Tree :=
  match e with
  | .config c => c.tree
  | .host h => h.tree
  | .generation _ cause =>
    .node [("error", .str "Generation"), ("message", .str e.message), ("cause", cause.tree)]
  | .construction _ cause =>
    .node [("error", .str "Construction.Failed"), ("message", .str e.message),
      ("cause", cause.tree)]

/-- A refusal as a tree. -/
def Refusal.tree : Refusal → Tree
  | unset sort => refusalTree "Unset" sort
  | malformed what => refusalTree "BadInput" what
  | outOfSteps => refusalTree "OutOfSteps" "calls are nested too deep"
  | host e => e.tree
  | emit e => e.tree
  | harvest e => e.tree
  | config e => e.tree
  | platform e => e.tree

end Interpose
