import Interpose.Run.Frame
import Interpose.Dispatch.Router
import Interpose.Platform.Construction
import Interpose.Machine.Names

/-!
# Execution

Tasks are run by recursion on a bound of how deep calls nest. Each generated body has a bound of its
own on the instructions it executes. `runTask` says what a task does, given a way of running the
tasks it starts, and `exec` ties the knot.
-/

namespace Interpose

/-- The class of the exception that a body gets for an error of a platform. -/
def platformErrorClass : String := "driver.PlatformError"

/-- An error of a platform as a body gets it. -/
def PlatformError.toHostError : PlatformError → HostError
  | .host e => e
  | e => .exception ⟨.custom platformErrorClass false, e.message⟩

namespace Runner

/-- Answers what a body asks for. -/
def perform (run : Runner) : Request → Action Value
  | .evaluate l => World.evaluate l
  | .newArray items => World.newArray items.toArray
  | .log text => do
    World.report text
    return .void
  | .getField o name => World.getField o name
  | .setField o name v => do
    World.setField o name v
    return .void
  | .call o name args => run.call o name args
  | .invoke o slot args => run.invoke o slot args
  | .construct type params args => do
    return .object (← run.construct (← World.keptType type) params args)
  | .getProperty i name => World.getProperty i name
  | .setProperty i name v => do
    World.setProperty i name v
    return .void
  | .overridden i name args => run.overriddenNamed i name args
  | .overriddenAt o operation args => do
    run.overridden (← get).mainPlatform o (← operationAt o operation) args
  | .typeName v => return .str ((← get).types.typeName v)
  | .isConstructing o => do
    let w ← get
    return .ofBool ((w.platform w.mainPlatform).constructing == some o)
  | .isActive => do
    let w ← get
    return .ofBool (w.platform w.mainPlatform).constructing.isSome
  | .isBound o => return .ofBool ((← get).isBound o)
  | .bind o name => do
    let id ← World.keptInstance name
    return .ofBool (← World.bind o id)
  | .extend script name => do
    let s ← World.kept "script" script (·.scripts)
    match ← (run.extend (← get).mainPlatform s [] []).run with
    | .error e => Action.raise e.toHostError
    | .ok id =>
      World.keepInstance name id
      match (← get).instances[id.index]? with
      | some i => return .object i.bridge
      | none => return .null

/-- Runs a program, answering what it asks for. -/
def program (run : Runner) : Program → Action Value
  | .done v => return v
  | .fail e => Action.raise e
  | .ask held r next => do
    let answer ← Action.outcome (World.holding (held.flatMap (·.holders)) (run.perform r))
    run.program (next answer)

/-- Checks that there are as many arguments as parameters. -/
def checkCount (text : String) (params : List ValueType) (args : List Value) : Action Unit :=
  if args.length = params.length then return ()
  else Action.raise (.argumentCount text params.length args.length)

/-- Runs a task; the tasks that it starts are run as told, and generated bodies execute at most a
number of instructions. -/
def runTask (run : Runner) (steps : Nat) : Task → Action Value
  | .method m this args => do
    checkCount m.text m.params args
    match m.body with
    | .abstract => Action.raise (.abstractMethod m.text)
    | .native body => run.program (body this args)
    | .compiled unit => unit.run run steps this args
  | .constructor c this args => do
    checkCount c.text c.params args
    match c.body with
    | .native body =>
      let _ ← run.program (body this args)
      return .void
    | .inherited none => return .void
    | .inherited (some parent) => run (.constructor parent this [])
    | .compiled unit =>
      let _ ← unit.run run steps this args
      return .void
  | .dispatch d this operation args => do
    match (← get).dispatchers[d.index]? with
    | none => Action.raise (.nullPointer "dispatcher")
    | some (.routing p) => run.dispatchRouted p this operation args
    | some (.custom body) =>
      World.holding (args.flatMap (·.holders)) (run.program (body this operation args))
  | .function f id args => do
    match f with
    | .imported source => Action.raise (.script ⟨source.name ++ " has no script body"⟩)
    | .scripted _ _ body =>
      match (← get).instances[id.index]? with
      | none => Action.raise (.nullPointer "instance")
      | some i =>
        match ← Action.outcome (run.program (body id i.bridge args)) with
        | .ok v => return v
        | .error e => Action.raise (.script (.ofHostError e))

end Runner

/-- Runs a task, which holds what it works on, with calls nested at most so deep and at most a number
of instructions in each generated body. -/
def exec (steps : Nat) : Nat → Runner
  | 0 => fun _ => throw .exhausted
  | depth + 1 => fun task => World.holding task.holders (Runner.runTask (exec steps depth) steps task)

end Interpose
