import Interpose.Run.Object

/-!
# Tasks

The four things that running can consist of. What is built from them takes the way of running them
as an argument, so it can be looked at apart from how deep calls are nested.
-/

namespace Interpose

/-- Something to run. -/
inductive Task where
  | method (m : Method) (this : ObjectRef) (args : List Value)
  | constructor (c : Constructor) (this : ObjectRef) (args : List Value)
  | dispatch (d : DispatcherId) (this : ObjectRef) (operation : Nat) (args : List Value)
  /-- A function of a script object. -/
  | function (f : ScriptFunction) (instance_ : InstanceId) (args : List Value)

/-- What a task holds while it runs: what it runs on, and its arguments. A dispatcher is handed the
arguments of a call, and holds them only as long as it needs them. -/
def Task.holders : Task → List Holder
  | method _ this args => Holder.ofCall this args
  | constructor _ this args => Holder.ofCall this args
  | dispatch _ this _ _ => [.object this.index]
  | function _ id args => .instance id :: args.flatMap (·.holders)

/-- A way of running tasks. -/
abbrev Runner := Task → Action Value

namespace Runner

/-- A virtual call of a slot. -/
def invoke (run : Runner) (o : ObjectRef) (slot : Slot) (args : List Value) : Action Value := do
  let types := (← get).types
  match types.findVirtual? o.cls slot with
  | some m => run (.method m o args)
  | none => Action.raise (.noSuchMethod (types.nameOf o.cls ++ "." ++ slot.text))

/-- The text of a call that nothing answers. -/
def callText (types : TypeTable) (cls : TypeId) (name : String) (count : Nat) : String :=
  types.nameOf cls ++ "." ++ name ++ "/" ++ toString count

/-- A virtual call by name. -/
def call (run : Runner) (o : ObjectRef) (name : String) (args : List Value) : Action Value := do
  let types := (← get).types
  match types.findMethodFor? o.cls name args with
  | some m => run (.method m o args)
  | none => Action.raise (.noSuchMethod (callText types o.cls name args.length))

/-- A new object, whose constructor is found by its parameter types. -/
def construct (run : Runner) (cls : TypeId) (params : List ValueType) (args : List Value) :
    Action ObjectRef := do
  let types := (← get).types
  match (types.lookup? cls).bind (·.findConstructor? params) with
  | none =>
    Action.raise (.noSuchMethod (types.nameOf cls ++ ".<init>(" ++
      ", ".intercalate (params.map (·.text)) ++ ")"))
  | some c => do
    let o ← World.allocate cls
    let _ ← run (.constructor c o args)
    return o

end Runner

end Interpose
