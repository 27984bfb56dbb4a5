import Interpose.Proofs.Calling
import Interpose.Proofs.Forwarding
import Interpose.Proofs.Furnishing

/-!
# What bodies ask for

While a task runs, its body asks for things, and so do the bodies of the tasks that are started to answer it, however
deep. All that is asked for is listed in the order in which it is. Script objects are changed by the requests of this
list that set properties, in order, and by nothing else that runs.
-/

namespace Interpose

open Interpose.Action (callsAfter)

/-! ## Lists of requests -/

namespace Runner

/-- The calls that making a script object makes: its bridge is constructed, and marked meanwhile. -/
def createCalls (p : PlatformId) (proxy : TypeId) (params : List ValueType) (args : List Value) (w : World) :
    List Call :=
  if params.length = args.length then
    match (w.types.lookup? proxy).bind (·.findConstructor? params) with
    | some c =>
      callsAfter (World.allocate proxy) w fun bridge w => [⟨.constructor c bridge args, w.marked p (some bridge)⟩]
    | none => []
  else []

/-- The calls that making a script object of a script type makes. -/
def extendCalls (p : PlatformId) (script : ScriptType) (params : List ValueType) (args : List Value) (w : World) :
    List Call :=
  match w.createExtensionType p script.base script.interfaces script.propertyInterfaces .system with
  | (.ok proxy, w) => createCalls p proxy params args w
  | (.error _, _) => []

/-- The calls that an answer to a body makes, those of platforms included. -/
def performCalls (w : World) : Request → List Call
  | .extend script _ =>
    callsAfter (World.kept "script" script (·.scripts)) w fun s w => extendCalls w.mainPlatform s [] [] w
  | r => requestCalls w r

end Runner

/-- What is asked for after a computation, if that ends with a value. -/
def Action.askedAfter {α : Type} (x : Action α) (w : World) (asked : α → World → List Request) : List Request :=
  match x w with
  | (.ok a, after) => asked a after
  | (.error _, _) => []

theorem flatMap_callsAfter {α : Type} (x : Action α) (w : World) (calls : α → World → List Call)
    (asks : Call → List Request) : (callsAfter x w calls).flatMap asks =
      Action.askedAfter x w fun a after => (calls a after).flatMap asks := by
  rw [callsAfter, Action.askedAfter]
  rcases x w with ⟨_ | a, after⟩ <;> rfl

section

variable (asks : Call → List Request)

/-- What is asked for by asking for something: that, and what is asked for in the calls that the answer makes. -/
def Request.asked (w : World) (r : Request) : List Request := r :: (Runner.performCalls w r).flatMap asks

/-- What a program asks for. -/
def Runner.programAsked (run : Runner) : Program → World → List Request
  | .done _, _ => []
  | .fail _, _ => []
  | .ask held r next, w =>
    r.asked asks (w.withHeld (held.flatMap (·.holders))) ++
      Action.askedAfter (Action.outcome (World.holding (held.flatMap (·.holders)) (run.perform r))) w fun answer w =>
        run.programAsked (next answer) w

/-- The program that a task runs, if its body is one, and the world in which it does. -/
def Task.program? (w : World) : Task → Option (Program × World)
  | .method m this args =>
    if args.length = m.params.length then
      match m.body with
      | .native body => some (body this args, w)
      | _ => none
    else none
  | .constructor c this args =>
    if args.length = c.params.length then
      match c.body with
      | .native body => some (body this args, w)
      | _ => none
    else none
  | .dispatch d this operation args =>
    match w.dispatchers[d.index]? with
    | some (.custom body) => some (body this operation args, w.withHeld (args.flatMap (·.holders)))
    | _ => none
  | .function f id args =>
    match f with
    | .imported _ => none
    | .scripted _ _ body => w.instances[id.index]?.map fun i => (body id i.bridge args, w)

/-- What is asked for while a task runs. -/
def Task.asked (run : Runner) (steps : Nat) (w : World) (task : Task) : List Request :=
  match task.program? w with
  | some (b, w) => run.programAsked asks b w
  | none => (task.calls run steps w).flatMap asks

end

/-- What is asked for in a call, whose own calls nest at most so deep. -/
def Call.asked (steps : Nat) : Nat → Call → List Request
  | 0, _ => []
  | depth + 1, c => c.task.asked (Call.asked steps depth) (exec steps depth) steps (c.world.withHeld c.task.holders)

/-! ## What requests do to script objects -/

namespace Instance

/-- A script object with a property set; a property that is a view stays one. -/
def setting (i : Instance) (name : String) (v : Value) : Instance :=
  match i.property? name with
  | some .live => i
  | _ => i.hold name v

/-- A script object after a request. -/
def answering (i : Instance) (id : InstanceId) : Request → Instance
  | .setProperty other name v => if other = id then i.setting name v else i
  | _ => i

/-- A script object after some requests. -/
def after (i : Instance) (id : InstanceId) (asked : List Request) : Instance :=
  asked.foldl (fun i r => i.answering id r) i

end Instance

/-- Whether script objects became what some requests make of them. -/
def World.Follows (asked : List Request) (w w' : World) : Prop :=
  ∀ (id : InstanceId) i, w.instances[id.index]? = some i → w'.instances[id.index]? = some (i.after id asked)

namespace World

variable {asked asked' : List Request} {w w' w'' : World}

theorem Follows.of_instances (h : w'.instances = w.instances) : Follows [] w w' := fun _ _ hi => h ▸ hi

theorem Follows.trans (h : Follows asked w w') (h' : Follows asked' w' w'') : Follows (asked ++ asked') w w'' := by
  intro id i hi
  rw [Instance.after, List.foldl_append]
  exact h' id _ (h id i hi)

theorem Follows.bind {α β : Type} {x : Action α} {f : α → Action β} {next : α → World → List Request}
    (hx : Follows asked w (x w).2)
    (hf : ∀ a after, x w = (.ok a, after) → Follows (next a after) after (f a after).2) :
    Follows (asked ++ Action.askedAfter x w next) w ((x >>= f) w).2 := by
  rw [Action.askedAfter, Action.bind_apply]
  rcases ha : x w with ⟨halt | a, after⟩
  all_goals rw [ha] at hx
  · rw [List.append_nil]
    exact hx
  · exact hx.trans (hf a after ha)

/-- What is done without starting tasks and setting properties can come after all. -/
theorem Follows.bind_plain {α β : Type} {x : Action α} {f : α → Action β} (hx : Follows asked w (x w).2)
    (hf : ∀ a after, Follows [] after (f a after).2) : Follows asked w ((x >>= f) w).2 := by
  rw [Action.bind_apply]
  rcases ha : x w with ⟨halt | a, after⟩
  all_goals rw [ha] at hx
  · exact hx
  · rw [← List.append_nil asked]
    exact hx.trans (hf a after)

theorem Follows.of_get {β : Type} {f : World → Action β} (h : Follows asked w (f w w).2) :
    Follows asked w (((get : Action World) >>= f) w).2 := by
  rwa [Action.bind_apply_ok (Action.get_apply w)]

theorem Follows.outcome {α : Type} {x : Action α} (hx : Follows asked w (x w).2) :
    Follows asked w (Action.outcome x w).2 := by
  rw [Action.outcome]
  rcases ha : x w with ⟨(_ | e) | a, after⟩
  all_goals
    rw [ha] at hx
    exact hx

/-- A request that sets no property changes no script object itself. -/
theorem Follows.cons {r : Request} (hset : ∀ id name v, r ≠ .setProperty id name v) (h : Follows asked w w') :
    Follows (r :: asked) w w' := by
  intro id i hi
  have hsame : i.answering id r = i := by
    cases r with
    | setProperty other name v => exact absurd rfl (hset other name v)
    | _ => rfl
  rw [Instance.after, List.foldl_cons, hsame]
  exact h id i hi

/-- Script objects that are there stay as they are besides setting properties. -/
theorem keptAside_instance (k : Nat) (i : Instance) : KeptAside fun w => w.instances[k]? = some i where
  rest _ _ _ _ _ h := h
  allocate cls h := by
    refine Action.PreservesAt.of_get (P := fun w : World => w.instances[k]? = some i) ?_ h
    split
    · exact Action.Preserves.raise _
    · split
      · exact Action.Preserves.raise _
      · exact id
  setField o name v h := by
    refine Action.PreservesAt.of_get (P := fun w : World => w.instances[k]? = some i) ?_ h
    split
    · exact Action.Preserves.raise _
    · split
      · exact id
      · exact Action.Preserves.raise _
  bind o id h := by
    rw [bind_apply]
    split <;> exact h
  boundTo o h := by
    refine Action.PreservesAt.of_get (P := fun w : World => w.instances[k]? = some i) ?_ h
    split
    · exact Action.Preserves.pure _
    · split
      · exact id
      · exact Action.Preserves.pure _
  addInstance i' h := by
    rw [addInstance_apply, withInstance, Array.getElem?_push, if_neg (Nat.ne_of_lt (Array.getElem?_eq_some_iff.1 h).1)]
    exact h
  resolve p real op h := by
    rw [Runner.resolve_snd]
    exact h
  marked _ _ h := h
  request p n _ h := by
    rw [(objects_createExtensionType ..).2]
    exact h

theorem follows_plain {α : Type} {x : Action α} (h : Action.Plain x) (w : World) : Follows [] w (x w).2 :=
  fun id i hi => h _ (keptAside_instance id.index i) w hi

/-- A property that is a view is set in the bridge, and any other one is held. -/
theorem setProperty_apply {id : InstanceId} {i : Instance} (hi : w.instances[id.index]? = some i) (name : String)
    (v : Value) : setProperty id name v w =
      if i.property? name = some .live then setField i.bridge name v w
      else (.ok (), { w with instances := w.instances.modify id.index (·.hold name v) }) := by
  rw [setProperty, Action.bind_apply_ok (Action.get_apply w), hi]
  dsimp only
  rcases i.property? name with _ | _ | _ <;> rfl

/-- Setting a property does what a request to set it does. -/
theorem follows_setProperty (id : InstanceId) (name : String) (v : Value) (w : World) :
    Follows [.setProperty id name v] w (setProperty id name v w).2 := by
  intro other i hi
  change _ = some (if id = other then i.setting name v else i)
  by_cases hsame : id = other
  · subst hsame
    rw [if_pos rfl, setProperty_apply hi, Instance.setting]
    split
    · rename_i hlive
      rw [hlive]
      exact follows_plain (fun _ hP _ => hP.setField i.bridge name v) w id i hi
    · rename_i hlive
      split
      · contradiction
      · rw [Array.getElem?_modify, if_pos rfl, hi]
        rfl
  · rw [if_neg hsame]
    cases hj : w.instances[id.index]? with
    | none =>
      rw [setProperty, Action.bind_apply_ok (Action.get_apply w), hj]
      exact hi
    | some j =>
      rw [setProperty_apply hj]
      split
      · exact follows_plain (fun _ hP _ => hP.setField j.bridge name v) w other i hi
      · have hne : id.index ≠ other.index := fun h => hsame (congrArg InstanceId.mk h)
        rw [Array.getElem?_modify, if_neg hne]
        exact hi

/-- What is left of making a script object adds it, and binds its bridge. -/
theorem follows_concluded (script : ScriptType) (base : String) (p : PlatformId) (bridge : ObjectRef)
    (r : Except Halt Value × World) : Follows [] r.2 (script.concluded base p bridge r).2 := by
  rcases r with ⟨(_ | e) | v, w⟩
  · exact .of_instances rfl
  · exact .of_instances rfl
  · have hmade : Follows [] w (w.withInstance ⟨script, bridge, p, script.liveProperties w.types⟩) := fun id i hi =>
      (keptAside_instance id.index i).addInstance _ hi
    rw [ScriptType.concluded]
    split
    · exact hmade
    · exact hmade

end World

namespace Runner

/-- Either there is something wrong with what is asked for, and nothing happens, or a bridge is constructed. -/
theorem createInstance_cases (run : Runner) (p : PlatformId) (proxy : TypeId) (script : ScriptType)
    (params : List ValueType) (args : List Value) (w : World) :
    (∃ e, run.createInstance p proxy script params args w = (.ok (.error e), w) ∧
      createCalls p proxy params args w = []) ∨
    ∃ t c, params.length = args.length ∧ w.types.lookup? proxy = some t ∧ t.isAbstract = false ∧
      t.findConstructor? params = some c := by
  by_cases hlength : params.length = args.length
  swap
  · refine .inl ⟨.config (.argumentCountMismatch params.length args.length), ?_, if_neg hlength⟩
    rw [createInstance]
    refine (PlatformAction.bind_apply_ok (r := .ok w) rfl).trans ?_
    simp only [ExceptT.bindCont, if_pos hlength]
    rfl
  rw [createCalls, if_pos hlength]
  cases hlookup : w.types.lookup? proxy with
  | none =>
    refine .inl ⟨.config (.noSuchConstructor (w.types.nameOf script.base) params), ?_, rfl⟩
    rw [createInstance]
    refine (PlatformAction.bind_apply_ok (r := .ok w) rfl).trans ?_
    simp only [ExceptT.bindCont, hlength, ne_eq, not_true_eq_false, if_false, hlookup, Option.bind_none]
    rfl
  | some t =>
    rw [Option.bind_some]
    cases hfound : t.findConstructor? params with
    | none => exact .inl ⟨_, createInstance_of_none hlength hlookup hfound, rfl⟩
    | some c =>
      cases hconcrete : t.isAbstract with
      | false => exact .inr ⟨t, c, hlength, rfl, hconcrete, hfound⟩
      | true =>
        have hallocate : World.allocate proxy w = (.error (.raised (.instantiation t.text)), w) := by
          rw [World.allocate, Action.bind_apply_ok (Action.get_apply w)]
          simp only [hlookup, hconcrete]
          rfl
        refine .inl ⟨.host (.instantiation t.text), ?_, ?_⟩
        · rw [createInstance]
          refine (PlatformAction.bind_apply_ok (r := .ok w) rfl).trans ?_
          simp only [ExceptT.bindCont, hlength, ne_eq, not_true_eq_false, if_false, hlookup, Option.bind_some, hfound]
          exact (PlatformAction.bind_apply_ok (PlatformAction.ofHost_apply_error hallocate)).trans rfl
        · dsimp only
          rw [callsAfter, hallocate]

end Runner

open World (Follows)

/-! ## What runs do to script objects -/

section

variable {asks : Call → List Request} {run : Runner} {w : World}
  (hrun : ∀ task w, Follows (asks ⟨task, w⟩) w (run task w).2)

include hrun

/-- What is composed of calls does to script objects what is asked for in these. -/
theorem Composed.follows {α : Type} {x : Runner → Action α} {calls : List Call} (h : Composed run w x calls) :
    Follows (calls.flatMap asks) w (x run w).2 := by
  induction h with
  | plain h => exact World.follows_plain h _
  | task task =>
    rw [List.flatMap_singleton]
    exact hrun task _
  | bind hx hf ihx ihf =>
    rw [List.flatMap_append, flatMap_callsAfter]
    exact ihx.bind ihf
  | holding h ih => exact ih

namespace Runner

/-- Making a script object runs the constructor of its bridge, if it comes to that, and changes no script object that is
there besides. -/
theorem follows_createInstance (p : PlatformId) (proxy : TypeId) (script : ScriptType) (params : List ValueType)
    (args : List Value) :
    Follows ((createCalls p proxy params args w).flatMap asks) w
      (run.createInstance p proxy script params args w).2 := by
  rcases createInstance_cases run p proxy script params args w with
    ⟨e, heq, hcalls⟩ | ⟨t, c, hlength, hlookup, hconcrete, hfound⟩
  · rw [heq, hcalls]
    exact .of_instances rfl
  · have hcalls : createCalls p proxy params args w = [⟨.constructor c ⟨w.objects.size, proxy⟩ args,
        (w.allocated proxy).marked p (some ⟨w.objects.size, proxy⟩)⟩] := by
      rw [createCalls, if_pos hlength, hlookup, Option.bind_some, hfound]
      dsimp only
      rw [callsAfter, World.allocate_apply hlookup hconcrete]
    rw [createInstance_of_some hlength hlookup hconcrete hfound, hcalls, List.flatMap_singleton]
    have hconstructed := hrun (.constructor c ⟨w.objects.size, proxy⟩ args)
      ((w.allocated proxy).marked p (some ⟨w.objects.size, proxy⟩))
    refine fun id i hi => ?_
    exact World.follows_concluded _ _ _ _ _ id _ (hconstructed id i hi)

theorem follows_extend (p : PlatformId) (script : ScriptType) (params : List ValueType) (args : List Value) :
    Follows ((extendCalls p script params args w).flatMap asks) w (run.extend p script params args w).2 := by
  have hinstances := (w.objects_createExtensionType p script.base script.interfaces script.propertyInterfaces .system).2
  rw [extendCalls]
  rcases hcreated : w.createExtensionType p script.base script.interfaces script.propertyInterfaces .system with ⟨r, w'⟩
  rw [hcreated] at hinstances
  rw [extend_apply hcreated]
  have hsame : Follows [] w w' := .of_instances hinstances
  cases r with
  | error e => exact hsame
  | ok proxy => exact hsame.trans (follows_createInstance hrun p proxy script params args)

/-- An answer to a body does to script objects what is asked for by asking for it. -/
theorem follows_perform (r : Request) : Follows (r.asked asks w) w (run.perform r w).2 := by
  cases r with
  | setProperty id name v =>
    exact World.Follows.bind_plain (World.follows_setProperty id name v w) fun _ _ => .of_instances rfl
  | extend script name =>
    refine World.Follows.cons (fun _ _ _ h => ?_) ?_
    · cases h
    · rw [performCalls, flatMap_callsAfter]
      have hkept := World.follows_plain (x := World.kept "script" script (·.scripts))
        (World.quiet_kept _ _ _).plain w
      refine hkept.bind fun s after _ => World.Follows.of_get ?_
      refine (follows_extend hrun after.mainPlatform s [] []).bind_plain fun answer after => ?_
      cases answer with
      | error e => exact .of_instances rfl
      | ok id =>
        refine World.follows_plain (fun _ hP => .bind (World.preserves_keepInstance hP name id) fun _ => .bind .get
          fun w => ?_) after
        split
        · exact .pure
        · exact .pure
  | _ =>
    refine World.Follows.cons (fun _ _ _ h => ?_) ?_
    · cases h
    · refine (composed_perform (fun _ _ h => ?_) fun _ _ _ h => ?_).follows hrun <;> cases h

theorem follows_program (b : Program) : Follows (run.programAsked asks b w) w (run.program b w).2 := by
  induction b generalizing w with
  | done v => exact .of_instances rfl
  | fail e => exact .of_instances rfl
  | ask held r next ih =>
    have hperform := follows_perform hrun (w := w.withHeld (held.flatMap (·.holders))) r
    have hheld : Follows (r.asked asks (w.withHeld (held.flatMap (·.holders)))) w
        (World.holding (held.flatMap (·.holders)) (run.perform r) w).2 := hperform
    -- the program gets an answer also where the request fails, and goes on from there
    exact hheld.outcome.bind fun answer after _ => ih answer

omit hrun in
theorem follows_checkCount {x : Action Value} {asked : List Request} (text : String) {params : List ValueType}
    {args : List Value} (h : args.length = params.length → Follows asked w (x w).2)
    (hnone : args.length ≠ params.length → asked = []) :
    Follows asked w ((checkCount text params args >>= fun _ => x) w).2 := by
  rw [checkCount]
  by_cases hlength : args.length = params.length
  · rw [if_pos hlength]
    exact h hlength
  · rw [if_neg hlength, hnone hlength]
    exact .of_instances rfl

theorem follows_runTask (steps : Nat) (task : Task) :
    Follows (task.asked asks run steps w) w (run.runTask steps task w).2 := by
  cases task with
  | method m this args =>
    refine follows_checkCount m.text (fun hlength => ?_) fun hlength => ?_
    · cases hbody : m.body with
      | abstract =>
        simp only [Task.asked, Task.program?, Task.calls, hlength, hbody]
        exact .of_instances rfl
      | native body =>
        simp only [Task.asked, Task.program?, hlength, hbody]
        exact follows_program hrun (body this args)
      | compiled unit =>
        simp only [Task.asked, Task.program?, Task.calls, hlength, hbody]
        exact (unit.composed_run steps this args).follows hrun
    · simp only [Task.asked, Task.program?, Task.calls, hlength]
      rfl
  | constructor c this args =>
    refine follows_checkCount c.text (fun hlength => ?_) fun hlength => ?_
    · cases hbody : c.body with
      | native body =>
        simp only [Task.asked, Task.program?, hlength, hbody]
        exact (follows_program hrun (body this args)).bind_plain fun _ _ => .of_instances rfl
      | inherited parent =>
        simp only [Task.asked, Task.program?, Task.calls, hlength, hbody]
        cases parent with
        | none => exact .of_instances rfl
        | some parent => exact (Composed.task (.constructor parent this [])).follows hrun
      | compiled unit =>
        simp only [Task.asked, Task.program?, Task.calls, hlength, hbody]
        exact ((unit.composed_run steps this args).follows hrun).bind_plain fun _ _ => .of_instances rfl
    · simp only [Task.asked, Task.program?, Task.calls, hlength]
      rfl
  | dispatch d this operation args =>
    refine World.Follows.of_get ?_
    cases hdispatcher : w.dispatchers[d.index]? with
    | none =>
      simp only [Task.asked, Task.program?, Task.calls, hdispatcher]
      exact .of_instances rfl
    | some dispatcher =>
      cases dispatcher with
      | routing p =>
        simp only [Task.asked, Task.program?, Task.calls, hdispatcher]
        exact (composed_dispatchRouted p this operation args).follows hrun
      | custom body =>
        simp only [Task.asked, Task.program?, hdispatcher]
        exact follows_program hrun (w := w.withHeld (args.flatMap (·.holders))) (body this operation args)
  | function f id args =>
    cases f with
    | imported source => exact .of_instances rfl
    | scripted name arity body =>
      refine World.Follows.of_get ?_
      cases hi : w.instances[id.index]? with
      | none =>
        simp only [Task.asked, Task.program?, Task.calls, hi]
        exact .of_instances rfl
      | some i =>
        simp only [Task.asked, Task.program?, hi]
        refine (follows_program hrun (body id i.bridge args)).outcome.bind_plain fun answer after => ?_
        cases answer <;> exact .of_instances rfl

end Runner

end

/-- A call does to script objects what is asked for in it. -/
theorem follows_exec (steps depth : Nat) (task : Task) (w : World) :
    Follows (Call.asked steps depth ⟨task, w⟩) w (exec steps depth task w).2 := by
  induction depth generalizing task w with
  | zero => exact .of_instances rfl
  | succ depth ih => exact Runner.follows_runTask (w := w.withHeld task.holders) ih steps task

end Interpose
