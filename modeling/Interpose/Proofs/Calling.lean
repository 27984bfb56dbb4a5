import Interpose.Proofs.Invariants

/-!
# The calls of tasks

Each task starts other tasks: a generated body those that its instructions call, a dispatcher the one that a call is
routed to, a body what it asks for. The calls of a task are listed in order, each with the world in which it is made.
What a task comes to depends on the calls of its list and on no others, and unless the body of the task catches errors
the task fails as soon as one of them does.
-/

namespace Interpose

/-- A task that is started, and the world in which it is. -/
structure Call where
  task : Task
  world : World

/-- A world in which some things more are held. -/
def World.withHeld (w : World) (holders : List Holder) : World := { w with held := holders ++ w.held }

namespace Action

variable {α : Type}

/-- Whether a computation ends with an error in a world. -/
def Fails (x : Action α) (w : World) (e : HostError) : Prop := (x w).1 = .error (.raised e)

/-- The calls that are made after a computation, if that ends with a value. -/
def callsAfter (x : Action α) (w : World) (calls : α → World → List Call) : List Call :=
  match x w with
  | (.ok a, after) => calls a after
  | (.error _, _) => []

variable {β : Type} {x : Action α} {f : α → Action β} {w after : World} {e : HostError} {a : α}

theorem Fails.bind (h : Fails x w e) : Fails (x >>= f) w e := by
  rw [Fails] at h ⊢
  rcases hx : x w with ⟨halt | a, after⟩
  · rw [hx] at h
    rw [bind_apply_error hx]
    exact congrArg _ (Except.error.inj h)
  · rw [hx] at h
    cases h

theorem Fails.bind_of_ok (hx : x w = (.ok a, after)) (h : Fails (f a) after e) : Fails (x >>= f) w e := by
  rw [Fails, bind_apply_ok hx]
  exact h

theorem Fails.holding {holders : List Holder} (h : Fails x (w.withHeld holders) e) :
    Fails (World.holding holders x) w e := h

theorem Fails.outcome (h : Fails x w e) : ∃ after, Action.outcome x w = (.ok (.error e), after) := by
  rw [Fails] at h
  rcases hx : x w with ⟨halt | a, after⟩
  · rw [hx] at h
    cases h
    exact ⟨after, by rw [Action.outcome, hx]⟩
  · rw [hx] at h
    cases h

theorem callsAfter_nil (x : Action α) (w : World) : callsAfter x w (fun _ _ => []) = [] := by
  rw [callsAfter]
  split <;> rfl

theorem exists_of_mem_callsAfter {calls : α → World → List Call} {c : Call} (h : c ∈ callsAfter x w calls) :
    ∃ a after, x w = (.ok a, after) ∧ c ∈ calls a after := by
  rw [callsAfter] at h
  split at h
  · rename_i a after hx
    exact ⟨a, after, hx, h⟩
  · exact absurd h List.not_mem_nil

end Action

open Interpose.Action (Fails callsAfter)

/-! ## Lists of calls -/

namespace Runner

/-- The calls that a virtual call of a slot makes. -/
def invokeCalls (o : ObjectRef) (slot : Slot) (args : List Value) (w : World) : List Call :=
  match w.types.findVirtual? o.cls slot with
  | some m => [⟨.method m o args, w⟩]
  | none => []

/-- The calls that a virtual call by name makes. -/
def callCalls (o : ObjectRef) (name : String) (args : List Value) (w : World) : List Call :=
  match w.types.findMethodFor? o.cls name args with
  | some m => [⟨.method m o args, w⟩]
  | none => []

/-- The calls that making an object makes. -/
def constructCalls (cls : TypeId) (params : List ValueType) (args : List Value) (w : World) : List Call :=
  match (w.types.lookup? cls).bind (·.findConstructor? params) with
  | some c => callsAfter (World.allocate cls) w fun o w => [⟨.constructor c o args, w⟩]
  | none => []

/-- The calls that running an accessor makes. -/
def accessorCalls (a : ResolvedAccessor) (this : ObjectRef) (args : List Value) (w : World) : List Call :=
  callsAfter (Action.withTypes fun types => types.coerceArgs a.accessor.params args) w fun args w =>
    [⟨.method a.accessor this args, w⟩]

/-- The calls that running what an operation overrides makes. -/
def overriddenCalls (p : PlatformId) (this : ObjectRef) (op : Method) (args : List Value) (w : World) : List Call :=
  callsAfter (resolve p this.cls op) w fun a w => accessorCalls a this args w

/-- The calls that running an overload makes. -/
def overloadCalls (p : PlatformId) (bridge : ObjectRef) (source : Method) (args : List Value) (w : World) :
    List Call :=
  callsAfter (Action.outcome (resolve p bridge.cls source)) w fun
    | .ok a, w => accessorCalls a bridge args w
    | .error _, w =>
      callsAfter (Action.withTypes fun types => types.coerceArgs source.params args) w fun args w =>
        invokeCalls bridge source.slot args w

/-- The calls that a function that answers an operation makes: those of the script, of what the operation overrides,
or of an overload. -/
def answerCalls (p : PlatformId) (id : InstanceId) (bridge : ObjectRef) (op : Method) (args : List Value)
    (w : World) : ScriptFunction → List Call
  | .scripted name arity body => [⟨.function (.scripted name arity body) id (args.map (·.unboxed)), w⟩]
  | .imported source =>
    if source.isAbstract then []
    else if source.slot = op.slot then overriddenCalls p bridge op args w
    else overloadCalls p bridge source args w

/-- The calls that the answer of a script object makes. -/
def routeCalls (p : PlatformId) (id : InstanceId) (op : Method) (args : List Value) (w : World) : List Call :=
  match w.instances[id.index]? with
  | none => []
  | some i =>
    if op.declaring == capabilityName then []
    else
      match i.script.resolve? w.types op.name (args.map (·.unboxed)) with
      | none => []
      | some f => answerCalls p id i.bridge op args (w.withHeld (args.flatMap (·.holders))) f

/-- The calls that the answer to an intercepted call makes. -/
def dispatchCalls (p : PlatformId) (this : ObjectRef) (operation : Nat) (args : List Value) (w : World) : List Call :=
  callsAfter (operationAt this operation) w fun op w =>
    if (w.platform p).constructing = some this then overriddenCalls p this op args w
    else
      callsAfter (World.holding (args.flatMap (·.holders)) (World.boundTo this)) w fun
        | some id, w => routeCalls p id op args (w.withHeld [.instance id])
        | none, w => overriddenCalls p this op args w

/-- The calls that running what the operation of a name overrides makes. -/
def overriddenNamedCalls (id : InstanceId) (name : String) (args : List Value) (w : World) : List Call :=
  match w.instances[id.index]? with
  | none => []
  | some i =>
    let operations := ((w.types.proxy? i.bridge.cls).map (·.operations)).getD []
    let candidates := operations.filter fun m => m.name == name && m.params.length == args.length
    match (candidates.find? fun m => w.types.acceptsArgs m.params args).or candidates.head? with
    | some op => overriddenCalls i.platform i.bridge op args w
    | none => []

/-- The calls that an answer to a body makes. What a platform runs to make a script object is not among them: a platform
answers with errors of its own. -/
def requestCalls (w : World) : Request → List Call
  | .call o name args => callCalls o name args w
  | .invoke o slot args => invokeCalls o slot args w
  | .construct type params args =>
    callsAfter (World.keptType type) w fun cls w => constructCalls cls params args w
  | .overridden i name args => overriddenNamedCalls i name args w
  | .overriddenAt o operation args =>
    callsAfter (operationAt o operation) w fun op after => overriddenCalls w.mainPlatform o op args after
  | _ => []

/-- The calls that a program makes. -/
def programCalls (run : Runner) : Program → World → List Call
  | .done _, _ => []
  | .fail _, _ => []
  | .ask held r next, w =>
    requestCalls (w.withHeld (held.flatMap (·.holders))) r ++
      callsAfter (Action.outcome (World.holding (held.flatMap (·.holders)) (run.perform r))) w fun answer w =>
        run.programCalls (next answer) w

end Runner

namespace CompiledBody

variable (unit : CompiledBody)

/-- The calls that an instruction makes. -/
def stepCalls (f : Frame) (w : World) : Instr → List Call
  | .invokeSuper c =>
    callsAfter (unit.constant c) w fun
      | .method m, w =>
        callsAfter (unit.popMany f m.params.length) w fun (args, f) w =>
          callsAfter (unit.popObject f) w fun (o, f) w => [⟨.method m o args, w.withHeld f.holders⟩]
      | _, _ => []
  | .invokeSuperCtor c =>
    callsAfter (unit.constant c) w fun
      | .ctor k, w =>
        callsAfter (unit.popMany f k.params.length) w fun (args, f) w =>
          callsAfter (unit.popObject f) w fun (o, f) w => [⟨.constructor k o args, w.withHeld f.holders⟩]
      | _, _ => []
  | .invokeDispatch =>
    callsAfter (unit.popArray f) w fun (id, f) w =>
      callsAfter (World.itemsOf id) w fun args w =>
        callsAfter (unit.pop f) w fun
          | (.operation n, f), w =>
            callsAfter (unit.popObject f) w fun (o, f) w =>
              callsAfter (unit.pop f) w fun
                | (.dispatcher d, f), w => [⟨.dispatch d o n args.toList, w.withHeld f.holders⟩]
                | _, _ => []
          | _, _ => []
  | _ => []

/-- The calls that a body makes from a position on. -/
def loopCalls (run : Runner) : Nat → Nat → Frame → World → List Call
  | 0, _, _, _ => []
  | steps + 1, pc, f, w =>
    (match unit.image.fetch? pc with
      | some (i, _) => unit.stepCalls f w i
      | none => []) ++
      callsAfter (unit.advance run pc f) w fun
        | .at next f, w => loopCalls run steps next f w
        | .returned _, _ => []

/-- The calls that a generated body makes. -/
def calls (run : Runner) (steps : Nat) (this : ObjectRef) (args : List Value) (w : World) : List Call :=
  if w.isDefined this unit.owner then
    unit.loopCalls run steps 0 (.start unit.locals this args) (w.withHeld [.type unit.owner])
  else []

end CompiledBody

/-- The calls that a task makes. -/
def Task.calls (run : Runner) (steps : Nat) (w : World) : Task → List Call
  | .method m this args =>
    if args.length = m.params.length then
      match m.body with
      | .abstract => []
      | .native body => run.programCalls (body this args) w
      | .compiled unit => unit.calls run steps this args w
    else []
  | .constructor c this args =>
    if args.length = c.params.length then
      match c.body with
      | .native body => run.programCalls (body this args) w
      | .inherited none => []
      | .inherited (some parent) => [⟨.constructor parent this [], w⟩]
      | .compiled unit => unit.calls run steps this args w
    else []
  | .dispatch d this operation args =>
    match w.dispatchers[d.index]? with
    | none => []
    | some (.routing p) => Runner.dispatchCalls p this operation args w
    | some (.custom body) => run.programCalls (body this operation args) (w.withHeld (args.flatMap (·.holders)))
  | .function f id args =>
    match f with
    | .imported _ => []
    | .scripted _ _ body =>
      match w.instances[id.index]? with
      | none => []
      | some i => run.programCalls (body id i.bridge args) w

/-! ## What calls decide -/

/-- Whether a program passes errors on: where it gets one for an answer, it ends with it. -/
def Program.Passes : Program → Prop
  | .done _ => True
  | .fail _ => True
  | .ask _ _ next => (∀ e, next (.error e) = .fail e) ∧ ∀ v, (next (.ok v)).Passes

/-- Whether two ways of running tasks answer requests to platforms alike. -/
def Runner.ExtendAlike (run run' : Runner) : Prop :=
  ∀ script name, run'.perform (.extend script name) = run.perform (.extend script name)

/-- Whether a computation depends on no calls but some. -/
def DependsOn {α : Type} (run : Runner) (w : World) (x : Runner → Action α) (calls : List Call) : Prop :=
  ∀ run', run.ExtendAlike run' → (∀ c ∈ calls, run' c.task c.world = run c.task c.world) → x run' w = x run w

/-- Whether some calls are those that a computation makes: it depends on no others, and fails as soon as one of them
does. -/
structure Makes {α : Type} (run : Runner) (w : World) (x : Runner → Action α) (calls : List Call) : Prop where
  depends : DependsOn run w x calls
  fails : ∀ c ∈ calls, ∀ e, Fails (run c.task) c.world e → Fails (x run) w e

section

variable {α β : Type} {run : Runner} {w : World} {x : Runner → Action α} {f : Runner → α → Action β}
  {calls : List Call}

theorem DependsOn.bind {next : α → World → List Call} (hx : DependsOn run w x calls)
    (hf : ∀ a after, x run w = (.ok a, after) → DependsOn run after (fun run => f run a) (next a after)) :
    DependsOn run w (fun run => x run >>= f run) (calls ++ callsAfter (x run) w next) := by
  intro run' hextend h
  have hsame := hx run' hextend fun c hc => h c (List.mem_append_left _ hc)
  show (x run' >>= f run') w = (x run >>= f run) w
  rcases ha : x run w with ⟨halt | a, after⟩
  · rw [Action.bind_apply_error ha, Action.bind_apply_error (hsame.trans ha)]
  · rw [Action.bind_apply_ok ha, Action.bind_apply_ok (hsame.trans ha)]
    refine hf a after ha run' hextend fun c hc => h c (List.mem_append_right _ ?_)
    rw [callsAfter, ha]
    exact hc

theorem DependsOn.outcome (hx : DependsOn run w x calls) :
    DependsOn run w (fun run => Action.outcome (x run)) calls := by
  intro run' hextend h
  show Action.outcome (x run') w = Action.outcome (x run) w
  rw [Action.outcome, Action.outcome, hx run' hextend h]

namespace Makes

/-- A computation that runs no tasks makes no calls. -/
theorem none (x : Action α) : Makes run w (fun _ => x) [] :=
  ⟨fun _ _ _ => rfl, fun _ h => absurd h List.not_mem_nil⟩

/-- A task that is run is a call. -/
theorem task (task : Task) : Makes run w (fun run => run task) [⟨task, w⟩] := by
  refine ⟨fun run' _ h => h _ List.mem_cons_self, fun c hc e he => ?_⟩
  obtain rfl := List.mem_singleton.1 hc
  exact he

/-- What is computed one after the other makes the calls of both. -/
theorem bind {next : α → World → List Call} (hx : Makes run w x calls)
    (hf : ∀ a after, x run w = (.ok a, after) → Makes run after (fun run => f run a) (next a after)) :
    Makes run w (fun run => x run >>= f run) (calls ++ callsAfter (x run) w next) := by
  refine ⟨hx.depends.bind fun a after ha => (hf a after ha).depends, fun c hc e he => ?_⟩
  rcases List.mem_append.1 hc with hc | hc
  · exact (hx.fails c hc e he).bind
  · obtain ⟨a, after, ha, hc⟩ := Action.exists_of_mem_callsAfter hc
    exact ((hf a after ha).fails c hc e he).bind_of_ok ha

/-- What is computed after something that runs no tasks makes all the calls. -/
theorem after {x : Action α} {next : α → World → List Call}
    (hf : ∀ a after, x w = (.ok a, after) → Makes run after (fun run => f run a) (next a after)) :
    Makes run w (fun run => x >>= f run) (callsAfter x w next) :=
  (none x).bind hf

/-- What is done with a value without running tasks makes no further calls. -/
theorem map (hx : Makes run w x calls) (g : α → Action β) : Makes run w (fun run => x run >>= g) calls := by
  have hbind : Makes run w (fun run => x run >>= g) (calls ++ callsAfter (x run) w fun _ _ => []) :=
    hx.bind fun a _ _ => none (g a)
  rwa [Action.callsAfter_nil, List.append_nil] at hbind

/-- A computation that looks at the world first. -/
theorem of_get {f : Runner → World → Action β} (h : Makes run w (fun run => f run w) calls) :
    Makes run w (fun run => (get : Action World) >>= f run) calls := by
  change Makes run w _ (callsAfter (get : Action World) w fun _ _ => calls)
  refine after fun v after hget => ?_
  rw [Action.get_apply] at hget
  cases hget
  exact h

/-- What is computed while things are held. -/
theorem holding {holders : List Holder} (h : Makes run (w.withHeld holders) x calls) :
    Makes run w (fun run => World.holding holders (x run)) calls :=
  ⟨fun run' hextend hcalls => Action.holding_congr (h.depends run' hextend hcalls),
    fun c hc e he => (h.fails c hc e he).holding⟩

end Makes

end

/-! ## Computations that are composed of calls -/

/-- Whether a computation runs no tasks, and does to a world at most what a run does besides setting properties. -/
def Action.Plain {α : Type} (x : Action α) : Prop := ∀ P, World.KeptAside P → Action.Preserves P x

namespace Action

variable {α : Type} {x : Action α}

theorem Quiet.plain (h : x.Quiet) : x.Plain := fun _ _ => h.preserves

theorem Elementary.plain (h : x.Elementary) : x.Plain := fun _ hP => h.preserves hP

/-- A routine that starts no tasks. -/
theorem Routine.plain (h : Routine fun _ => x) : x.Plain := by
  intro P hP
  have hrun : Runner.Preserves P fun _ => Pure.pure .void := fun _ => .pure
  exact h.preserves hP hrun

theorem Plain.raise {e : HostError} : Plain (raise e : Action α) := Quiet.raise.plain

theorem Plain.pure {a : α} : Plain (pure a) := Quiet.pure.plain

theorem Plain.withTypes {g : TypeTable → Except HostError α} : Plain (withTypes g) := Quiet.withTypes.plain

end Action

/-- Computations that are composed of plain ones and of tasks that are run, with the calls that they make. -/
inductive Composed (run : Runner) : {α : Type} → World → (Runner → Action α) → List Call → Prop
  | plain {α : Type} {w : World} {x : Action α} (h : x.Plain) : Composed run w (fun _ => x) []
  | task {w : World} (task : Task) : Composed run w (fun run => run task) [⟨task, w⟩]
  | bind {α β : Type} {w : World} {x : Runner → Action α} {f : Runner → α → Action β} {calls : List Call}
      {next : α → World → List Call} (hx : Composed run w x calls)
      (hf : ∀ a after, x run w = (.ok a, after) → Composed run after (fun run => f run a) (next a after)) :
      Composed run w (fun run => x run >>= f run) (calls ++ callsAfter (x run) w next)
  | holding {α : Type} {w : World} {x : Runner → Action α} {holders : List Holder} {calls : List Call}
      (h : Composed run (w.withHeld holders) x calls) : Composed run w (fun run => World.holding holders (x run)) calls

namespace Composed

variable {α β : Type} {run : Runner} {w : World} {x : Runner → Action α} {f : Runner → α → Action β}
  {calls : List Call}

theorem makes (h : Composed run w x calls) : Makes run w x calls := by
  induction h with
  | plain _ => exact .none _
  | task task => exact .task task
  | bind _ _ ihx ihf => exact ihx.bind ihf
  | holding _ ih => exact ih.holding

theorem after {x : Action α} {next : α → World → List Call} (hx : x.Plain)
    (hf : ∀ a after, x w = (.ok a, after) → Composed run after (fun run => f run a) (next a after)) :
    Composed run w (fun run => x >>= f run) (callsAfter x w next) :=
  (plain hx).bind hf

theorem map (hx : Composed run w x calls) {g : α → Action β} (hg : ∀ a, (g a).Plain) :
    Composed run w (fun run => x run >>= g) calls := by
  have hbind : Composed run w (fun run => x run >>= g) (calls ++ callsAfter (x run) w fun _ _ => []) :=
    hx.bind fun a _ _ => plain (hg a)
  rwa [Action.callsAfter_nil, List.append_nil] at hbind

theorem of_get {f : Runner → World → Action β} (h : Composed run w (fun run => f run w) calls) :
    Composed run w (fun run => (get : Action World) >>= f run) calls := by
  change Composed run w _ (callsAfter (get : Action World) w fun _ _ => calls)
  refine after Action.Quiet.get.plain fun v after hget => ?_
  rw [Action.get_apply] at hget
  cases hget
  exact h

/-- A routine that does the same in whatever way tasks are run starts none. -/
theorem of_routine (h : Action.Routine x) (hsame : ∀ run run' : Runner, x run = x run') : Composed run w x [] := by
  have hplain : x = fun _ => x fun _ => pure .void := funext fun run => hsame run _
  rw [hplain]
  exact .plain fun _ hP => h.preserves hP fun _ => .pure

/-- One of two computations makes the calls of that one. -/
theorem ite {p : Prop} [Decidable p] {y : Runner → Action α} {calls' : List Call} (hx : p → Composed run w x calls)
    (hy : ¬p → Composed run w y calls') :
    Composed run w (fun run => if p then x run else y run) (if p then calls else calls') := by
  by_cases h : p
  · simp only [if_pos h]
    exact hx h
  · simp only [if_neg h]
    exact hy h

end Composed

namespace Runner

variable {run : Runner} {w : World}

theorem composed_invoke (o : ObjectRef) (slot : Slot) (args : List Value) :
    Composed run w (fun run => run.invoke o slot args) (invokeCalls o slot args w) := by
  refine .of_get ?_
  rw [invokeCalls]
  dsimp only
  cases w.types.findVirtual? o.cls slot with
  | none => exact .plain .raise
  | some m => exact .task _

theorem composed_call (o : ObjectRef) (name : String) (args : List Value) :
    Composed run w (fun run => run.call o name args) (callCalls o name args w) := by
  refine .of_get ?_
  rw [callCalls]
  dsimp only
  cases w.types.findMethodFor? o.cls name args with
  | none => exact .plain .raise
  | some m => exact .task _

theorem composed_construct (cls : TypeId) (params : List ValueType) (args : List Value) :
    Composed run w (fun run => run.construct cls params args) (constructCalls cls params args w) := by
  refine .of_get ?_
  rw [constructCalls]
  dsimp only
  cases (w.types.lookup? cls).bind (·.findConstructor? params) with
  | none => exact .plain .raise
  | some c => exact .after (Action.Elementary.allocate cls).plain fun o after _ => (Composed.task _).map fun _ => .pure

theorem composed_runAccessor (a : ResolvedAccessor) (this : ObjectRef) (args : List Value) :
    Composed run w (fun run => run.runAccessor a this args) (accessorCalls a this args w) :=
  .after .withTypes fun _ _ _ => .task _

theorem composed_overridden (p : PlatformId) (this : ObjectRef) (op : Method) (args : List Value) :
    Composed run w (fun run => run.overridden p this op args) (overriddenCalls p this op args w) :=
  .after (Action.Elementary.resolve p this.cls op).plain fun a _ _ => composed_runAccessor a this args

theorem composed_callOverload (p : PlatformId) (bridge : ObjectRef) (source : Method) (args : List Value) :
    Composed run w (fun run => run.callOverload p bridge source args) (overloadCalls p bridge source args w) := by
  have hresolve : Action.Routine fun _ => Action.outcome (resolve p bridge.cls source) :=
    .outcome (.elementary (.resolve p bridge.cls source))
  refine .after hresolve.plain fun found _ _ => ?_
  cases found with
  | ok a => exact composed_runAccessor a bridge args
  | error e => exact .after .withTypes fun args _ _ => composed_invoke bridge source.slot args

theorem composed_route (p : PlatformId) (id : InstanceId) (op : Method) (args : List Value) :
    Composed run w (fun run => run.route p id op args) (routeCalls p id op args w) := by
  refine .of_get ?_
  rw [routeCalls]
  cases w.instances[id.index]? with
  | none => exact .plain .raise
  | some i =>
    dsimp only
    split
    · exact .plain .pure
    · refine .holding ?_
      cases i.script.resolve? w.types op.name (args.map (·.unboxed)) with
      | none => exact .plain .raise
      | some f =>
        cases f with
        | scripted name arity body =>
          refine (Composed.task _).map fun result => ?_
          split
          · exact .pure
          · exact .withTypes
        | imported source =>
          dsimp only [answerCalls, ScriptFunction.isAbstractOnHost]
          refine .ite (fun _ => .plain .raise) fun _ => .ite (fun _ => ?_) fun _ => ?_
          · exact composed_overridden p i.bridge op args
          · exact composed_callOverload p i.bridge source args

theorem composed_dispatchRouted (p : PlatformId) (this : ObjectRef) (operation : Nat) (args : List Value) :
    Composed run w (fun run => run.dispatchRouted p this operation args) (dispatchCalls p this operation args w) := by
  refine .after (quiet_operationAt this operation).plain fun op after _ => .of_get ?_
  dsimp only
  split
  · exact (composed_overridden p this op args).map fun _ => .pure
  · have hbound : Action.Routine fun _ => World.holding (args.flatMap (·.holders)) (World.boundTo this) :=
      .holding _ (.elementary (.boundTo this))
    refine .after hbound.plain fun found after _ => ?_
    cases found with
    | none => exact (composed_overridden p this op args).map fun _ => .pure
    | some id => exact (composed_route p id op args).holding.map fun _ => .pure

theorem composed_overriddenNamed (id : InstanceId) (name : String) (args : List Value) :
    Composed run w (fun run => run.overriddenNamed id name args) (overriddenNamedCalls id name args w) := by
  refine .of_get ?_
  rw [overriddenNamedCalls]
  cases w.instances[id.index]? with
  | none => exact .plain .raise
  | some i =>
    dsimp only
    generalize ((((w.types.proxy? i.bridge.cls).map (·.operations)).getD []).filter fun m =>
      m.name == name && m.params.length == args.length) = candidates
    cases (candidates.find? fun m => w.types.acceptsArgs m.params args).or candidates.head? with
    | none => exact .plain .raise
    | some op => exact composed_overridden i.platform i.bridge op args

/-- The answers to requests are composed of calls, unless a script object is made or a property is set. -/
theorem composed_perform {r : Request} (hextend : ∀ script name, r ≠ .extend script name)
    (hset : ∀ id name v, r ≠ .setProperty id name v) :
    Composed run w (fun run => run.perform r) (requestCalls w r) := by
  cases r with
  | call o name args => exact composed_call o name args
  | invoke o slot args => exact composed_invoke o slot args
  | construct type params args =>
    exact .after (World.quiet_keptType type).plain fun cls _ _ =>
      (composed_construct cls params args).map fun _ => .pure
  | overridden i name args => exact composed_overriddenNamed i name args
  | overriddenAt o operation args =>
    exact .of_get (.after (quiet_operationAt o operation).plain fun op _ _ =>
      composed_overridden w.mainPlatform o op args)
  | setProperty i name v => exact absurd rfl (hset i name v)
  | extend script name => exact absurd rfl (hextend script name)
  | _ => exact .of_routine (routine_perform hextend hset) fun _ _ => rfl

theorem makes_perform (r : Request) : Makes run w (fun run => run.perform r) (requestCalls w r) := by
  cases r with
  | extend script name =>
    exact ⟨fun run' hextend _ => congrFun (hextend script name) w, fun _ h => absurd h List.not_mem_nil⟩
  | setProperty i name v => exact .none _
  | _ => refine (composed_perform (fun _ _ h => ?_) fun _ _ _ h => ?_).makes <;> cases h

/-- A program that passes errors on fails as soon as a call does that it asks for. -/
theorem makes_program {b : Program} (h : b.Passes) :
    Makes run w (fun run => run.program b) (run.programCalls b w) := by
  induction b generalizing w with
  | done v => exact .none _
  | fail e => exact .none _
  | ask held r next ih =>
    obtain ⟨herror, hok⟩ := h
    have hperform : Makes run w (fun run => World.holding (held.flatMap (·.holders)) (run.perform r))
        (requestCalls (w.withHeld (held.flatMap (·.holders))) r) := (makes_perform r).holding
    have hnext (answer : Except HostError Value) (after : World) :
        Makes run after (fun run => run.program (next answer)) (run.programCalls (next answer) after) := by
      cases answer with
      | ok v => exact ih _ (hok v)
      | error e =>
        rw [herror]
        exact .none _
    refine ⟨hperform.depends.outcome.bind fun answer after _ => (hnext answer after).depends, fun c hc e he => ?_⟩
    rcases List.mem_append.1 hc with hc | hc
    · obtain ⟨after, houtcome⟩ := (hperform.fails c hc e he).outcome
      refine Action.Fails.bind_of_ok houtcome ?_
      rw [herror]
      rfl
    · obtain ⟨answer, after, houtcome, hc⟩ := Action.exists_of_mem_callsAfter hc
      exact ((hnext answer after).fails c hc e he).bind_of_ok houtcome

end Runner

namespace CompiledBody

variable (unit : CompiledBody) {run : Runner} {w : World}

theorem composed_step (f : Frame) (i : Instr) :
    Composed run w (fun run => unit.step run f i) (unit.stepCalls f w i) := by
  cases i with
  | invokeSuper c =>
    refine .after (unit.quiet_constant c).plain fun k after _ => ?_
    cases k with
    | method m =>
      exact .after (unit.quiet_popMany f _).plain fun args _ _ =>
        .after (unit.quiet_popObject args.2).plain fun _ _ _ => (Composed.task _).holding.map fun _ => .pure
    | _ => exact .plain .raise
  | invokeSuperCtor c =>
    refine .after (unit.quiet_constant c).plain fun k after _ => ?_
    cases k with
    | ctor k =>
      exact .after (unit.quiet_popMany f _).plain fun args _ _ =>
        .after (unit.quiet_popObject args.2).plain fun _ _ _ => (Composed.task _).holding.map fun _ => .pure
    | _ => exact .plain .raise
  | invokeDispatch =>
    refine .after (unit.quiet_popArray f).plain fun array _ _ =>
      .after (World.quiet_itemsOf array.1).plain fun _ _ _ =>
        .after (unit.quiet_pop array.2).plain fun operation _ _ => ?_
    rcases operation with ⟨operation, f⟩
    cases operation with
    | operation n =>
      refine .after (unit.quiet_popObject f).plain fun receiver _ _ =>
        .after (unit.quiet_pop receiver.2).plain fun dispatcher _ _ => ?_
      rcases dispatcher with ⟨dispatcher, f⟩
      cases dispatcher with
      | dispatcher d => exact (Composed.task _).holding.map fun _ => .pure
      | _ => exact .plain (Action.Quiet.bind .get fun _ => unit.quiet_fault _).plain
    | _ => exact .plain (Action.Quiet.bind .get fun _ => unit.quiet_fault _).plain
  | _ => exact .of_routine (unit.routine_step f _) fun _ _ => rfl

theorem composed_loop (steps pc : Nat) (f : Frame) :
    Composed run w (fun run => unit.loop run steps pc f) (unit.loopCalls run steps pc f w) := by
  induction steps generalizing pc f w with
  | zero => exact .plain Action.Quiet.halt.plain
  | succ steps ih =>
    refine .bind ?_ fun state after _ => ?_
    · delta advance
      cases unit.image.fetch? pc with
      | none => exact .plain .raise
      | some fetched =>
        refine (unit.composed_step f fetched.1).map fun flow => ?_
        cases flow <;> exact .pure
    · cases state with
      | «at» next f => exact ih next f
      | returned v => exact .plain .pure

/-- A generated body is composed of the calls that its instructions make. -/
theorem composed_run (steps : Nat) (this : ObjectRef) (args : List Value) :
    Composed run w (fun run => unit.run run steps this args) (unit.calls run steps this args w) := by
  refine .of_get (.ite (fun _ => ?_) fun _ => .plain .raise)
  exact (unit.composed_loop steps 0 _).holding

end CompiledBody

/-! ## Tasks -/

/-- Whether the body of a task passes errors on. Generated bodies and the routing of calls have no way to catch them. -/
def Task.Passes (w : World) : Task → Prop
  | .method m this args =>
    match m.body with
    | .native body => (body this args).Passes
    | _ => True
  | .constructor c this args =>
    match c.body with
    | .native body => (body this args).Passes
    | _ => True
  | .dispatch d this operation args =>
    match w.dispatchers[d.index]? with
    | some (.custom body) => (body this operation args).Passes
    | _ => True
  | .function f id args =>
    match f with
    | .scripted _ _ body => ∀ i, w.instances[id.index]? = some i → (body id i.bridge args).Passes
    | .imported _ => True

/-- Whether a task is a function of a script object. -/
def Task.isFunction : Task → Bool
  | .function .. => true
  | _ => false

namespace Runner

variable {run : Runner} {w : World} {steps : Nat}

/-- What a checked number of arguments is passed to makes its calls only if the number is right. -/
theorem makes_checkCount {x : Runner → Action Value} {calls : List Call} (text : String) (params : List ValueType)
    (args : List Value) (hx : Makes run w x calls) :
    Makes run w (fun run => checkCount text params args >>= fun _ => x run)
      (if args.length = params.length then calls else []) := by
  rw [checkCount]
  by_cases h : args.length = params.length
  · simp only [if_pos h]
    exact hx
  · simp only [if_neg h]
    exact ⟨fun _ _ _ => rfl, fun _ hc => absurd hc List.not_mem_nil⟩

/-- A task that is no function of a script object fails as soon as a call does that it makes. -/
theorem makes_runTask {task : Task} (h : task.Passes w) (hhost : task.isFunction = false) :
    Makes run w (fun run => run.runTask steps task) (task.calls run steps w) := by
  cases task with
  | method m this args =>
    refine makes_checkCount m.text m.params args ?_
    rw [Task.Passes] at h
    cases hbody : m.body with
    | abstract => exact .none _
    | native body =>
      rw [hbody] at h
      exact makes_program h
    | compiled unit => exact (unit.composed_run steps this args).makes
  | constructor c this args =>
    refine makes_checkCount c.text c.params args ?_
    rw [Task.Passes] at h
    cases hbody : c.body with
    | native body =>
      rw [hbody] at h
      exact (makes_program h).map _
    | inherited parent =>
      cases parent with
      | none => exact .none _
      | some parent => exact .task _
    | compiled unit => exact (unit.composed_run steps this args).makes.map _
  | dispatch d this operation args =>
    refine .of_get ?_
    rw [Task.Passes] at h
    rw [Task.calls]
    cases hdispatcher : w.dispatchers[d.index]? with
    | none => exact .none _
    | some dispatcher =>
      rw [hdispatcher] at h
      cases dispatcher with
      | routing p => exact (composed_dispatchRouted p this operation args).makes
      | custom body => exact (makes_program h).holding
  | function f id args => cases hhost

/-- A function of a script object runs its body, and turns an error of it into an error of the script. -/
theorem runTask_function {f : ScriptFunction} {name : String} {arity : Option Nat} {body : ScriptBody} {i : Instance}
    {id : InstanceId} {args : List Value} (hf : f = .scripted name arity body)
    (hi : w.instances[id.index]? = some i) (run : Runner) :
    run.runTask steps (.function f id args) w =
      (Action.outcome (run.program (body id i.bridge args)) >>= fun
        | .ok v => pure v
        | .error e => Action.raise (.script (.ofHostError e))) w := by
  subst hf
  rewrite [runTask, Action.bind_apply_ok (Action.get_apply w), hi]
  rfl

/-- So its own errors and those that it passes on leave it alike. -/
theorem fails_of_body {f : ScriptFunction} {name : String} {arity : Option Nat} {body : ScriptBody} {i : Instance}
    {id : InstanceId} {args : List Value} {e : HostError} (hf : f = .scripted name arity body)
    (hi : w.instances[id.index]? = some i) (h : Fails (run.program (body id i.bridge args)) w e) :
    Fails (run.runTask steps (.function f id args)) w (.script (.ofHostError e)) := by
  obtain ⟨after, houtcome⟩ := h.outcome
  rw [Fails, runTask_function hf hi, Action.bind_apply_ok houtcome]
  rfl

/-- A task depends on no calls but those that it makes. -/
theorem dependsOn_runTask {task : Task} (h : task.Passes w) :
    DependsOn run w (fun run => run.runTask steps task) (task.calls run steps w) := by
  cases hhost : task.isFunction with
  | false => exact (makes_runTask h hhost).depends
  | true =>
    obtain ⟨f, id, args, rfl⟩ : ∃ f id args, task = .function f id args := by
      cases task <;> cases hhost
      exact ⟨_, _, _, rfl⟩
    intro run' hextend hcalls
    cases f with
    | imported source => rfl
    | scripted name arity body =>
      show run'.runTask steps _ w = run.runTask steps _ w
      cases hi : w.instances[id.index]? with
      | none => simp only [runTask, Action.bind_apply, Action.get_apply, hi]
      | some i =>
        simp only [Task.calls, hi] at hcalls
        have hsame : Action.outcome (run'.program (body id i.bridge args)) w =
            Action.outcome (run.program (body id i.bridge args)) w :=
          (makes_program (h i hi)).depends.outcome run' hextend hcalls
        rw [runTask_function rfl hi, runTask_function rfl hi, Action.bind_apply, Action.bind_apply, hsame]

/-- A function of a script object fails as soon as a call does that it makes, with an error of the script. -/
theorem fails_function {f : ScriptFunction} {id : InstanceId} {args : List Value} {c : Call} {e : HostError}
    (h : (Task.function f id args).Passes w) (hc : c ∈ (Task.function f id args).calls run steps w)
    (he : Fails (run c.task) c.world e) :
    Fails (run.runTask steps (.function f id args)) w (.script (.ofHostError e)) := by
  cases f with
  | imported source => exact absurd hc List.not_mem_nil
  | scripted name arity body =>
    cases hi : w.instances[id.index]? with
    | none =>
      simp only [Task.calls, hi] at hc
      exact absurd hc List.not_mem_nil
    | some i =>
      simp only [Task.calls, hi] at hc
      exact fails_of_body rfl hi ((makes_program (h i hi)).fails c hc e he)

end Runner

end Interpose
