import Interpose.Proofs.Requests
import Interpose.Proofs.Routines

/-!
# Runs

Everything that runs is given a way of running the tasks that it starts, and does nothing else with it than
to start tasks. So what runs does the same with two ways that do the same, and what it leaves is a later
world if each task leaves one. All tasks are started under the mark that a platform has, except for the
constructor of a bridge, which is started with the bridge marked.
-/

namespace Interpose

namespace Action

variable {α β : Type}

/-- Whether two computations agree in a world: both do the same and leave a later world. -/
structure AgreeAt (w : World) (x y : Action α) : Prop where
  same : x w = y w
  later : w.Later (y w).2

/-- Whether what is true of a world stays true. -/
def Lasts (D : World → Prop) : Prop := ∀ w w', D w → w.Later w' → D w'

/-- Whether two ways of running tasks agree in some worlds. -/
def Agree (D : World → Prop) (run run' : Runner) : Prop :=
  ∀ task w, D w → AgreeAt w (run task) (run' task)

/-- Whether a computation that runs tasks does the same in a world with any two ways of running them that
agree from then on. -/
def UniformAt (w : World) (x : Runner → Action α) : Prop :=
  ∀ D run run', Lasts D → D w → Agree D run run' → AgreeAt w (x run) (x run')

/-- Whether a computation does the same in every world. -/
def Uniform (x : Runner → Action α) : Prop := ∀ w, UniformAt w x

variable {w : World} {x : Runner → Action α} {f : Runner → α → Action β}

/-- A computation that runs no tasks. -/
theorem UniformAt.of_keeps {x : Action α} (h : KeepsAt w x) : UniformAt w fun _ => x :=
  fun _ _ _ _ _ _ => ⟨rfl, h⟩

theorem Uniform.of_keeps {x : Action α} (h : Keeps x) : Uniform fun _ => x := fun w => .of_keeps (h w)

/-- A task that is run. -/
theorem Uniform.run (task : Task) : Uniform fun run => run task :=
  fun w _ _ _ _ hw hagree => hagree task w hw

theorem AgreeAt.congr {x y z : Action α} (h : AgreeAt w x y) (hz : z w = y w) : AgreeAt w x z :=
  ⟨h.same.trans hz.symm, hz ▸ h.later⟩

theorem AgreeAt.left {x y : Action α} (h : AgreeAt w x y) : AgreeAt w x x :=
  ⟨rfl, h.same ▸ h.later⟩

theorem AgreeAt.bind {x y : Action α} {f g : α → Action β} (hx : AgreeAt w x y)
    (hf : ∀ a after, x w = (.ok a, after) → w.Later after → AgreeAt after (f a) (g a)) :
    AgreeAt w (x >>= f) (y >>= g) := by
  obtain ⟨hsame, hlater⟩ := hx
  rcases hy : y w with ⟨e | a, after⟩
  · rw [hy] at hsame hlater
    refine ⟨?_, ?_⟩
    · rw [bind_apply_error hsame, bind_apply_error hy]
    · rw [bind_apply_error hy]
      exact hlater
  · rw [hy] at hsame hlater
    have hnext := hf a after hsame hlater
    refine ⟨?_, ?_⟩
    · rw [bind_apply_ok hsame, bind_apply_ok hy]
      exact hnext.same
    · rw [bind_apply_ok hy]
      exact hlater.trans hnext.later

theorem UniformAt.bind (hx : UniformAt w x) (hf : ∀ a, Uniform fun run => f run a) :
    UniformAt w fun run => x run >>= f run := by
  intro D run run' hlasts hw hagree
  refine (hx D run run' hlasts hw hagree).bind fun a after _ hlater => ?_
  exact hf a after D run run' hlasts (hlasts w after hw hlater) hagree

theorem Uniform.bind (hx : Uniform x) (hf : ∀ a, Uniform fun run => f run a) :
    Uniform fun run => x run >>= f run :=
  fun w => (hx w).bind hf

/-- A computation that looks at the world first. -/
theorem AgreeAt.of_get {f g : World → Action β} (h : AgreeAt w (f w) (g w)) :
    AgreeAt w ((get : Action World) >>= f) (get >>= g) := by
  refine ⟨?_, ?_⟩
  · rw [bind_apply_ok (get_apply w), bind_apply_ok (get_apply w)]
    exact h.same
  · rw [bind_apply_ok (get_apply w)]
    exact h.later

/-- What is computed while things are held. -/
theorem AgreeAt.holding {hs : List Holder} {x y : Action α}
    (h : AgreeAt { w with held := hs ++ w.held } x y) :
    AgreeAt w (World.holding hs x) (World.holding hs y) := by
  refine ⟨holding_congr h.same, ?_⟩
  -- what was held before is held again at the end, whatever was computed
  exact ((World.Later.of_held w _).trans h.later).trans (.of_held _ _)

theorem Uniform.holding (hs : List Holder) (hx : Uniform x) :
    Uniform fun run => World.holding hs (x run) := by
  intro w D run run' hlasts hw hagree
  have hheld := hlasts w _ hw (.of_held w (hs ++ w.held))
  exact (hx _ D run run' hlasts hheld hagree).holding

theorem AgreeAt.outcome {x y : Action α} (h : AgreeAt w x y) :
    AgreeAt w (Action.outcome x) (Action.outcome y) := by
  refine ⟨?_, KeepsAt.outcome h.later⟩
  rw [Action.outcome, Action.outcome, h.same]

theorem Uniform.outcome (hx : Uniform x) : Uniform fun run => Action.outcome (x run) :=
  fun w D run run' hlasts hw hagree => (hx w D run run' hlasts hw hagree).outcome

end Action

open Interpose.Action (AgreeAt Keeps Uniform UniformAt)

/-! ## Routines -/

namespace Runner

theorem keeps_resolve (p : PlatformId) (real : TypeId) (op : Method) : Keeps (resolve p real op) := by
  refine .of_get fun w => .bind ?_ fun _ => .ofExcept
  exact World.Aside.later (.remember w p fun h => AccessorCache.sound_resolve h) (Array.size_modify ..)

end Runner

namespace Action

variable {α : Type}

theorem Quiet.keeps {x : Action α} (h : x.Quiet) : Keeps x := by
  intro w
  rw [KeepsAt, h w]
  exact .refl w

theorem Elementary.keeps {x : Action α} (h : x.Elementary) : Keeps x := by
  cases h with
  | quiet h => exact h.keeps
  | newArray items => exact World.keeps_newArray items
  | storeItem id i v => exact World.keeps_storeItem id i v
  | issue => exact World.keeps_issue
  | report text => exact World.keeps_report text
  | allocate cls => exact World.keeps_allocate cls
  | setField o name v => exact World.keeps_setField o name v
  | bindTo o id => exact World.keeps_bind o id
  | boundTo o => exact World.keeps_boundTo o
  | resolve p real op => exact Runner.keeps_resolve p real op

/-- A routine does nothing with the way in which tasks are run but to start tasks. -/
theorem Routine.uniform {x : Runner → Action α} (h : Routine x) : Uniform x := by
  induction h with
  | elementary h => exact .of_keeps h.keeps
  | task task => exact .run task
  | bind _ _ ihx ihf => exact .bind ihx ihf
  | outcome _ ih => exact ih.outcome
  | holding hs _ ih => exact .holding hs ih

end Action

/-! ## Construction -/

namespace World

/-- A world in which a platform has another mark. -/
def marked (w : World) (p : PlatformId) (mark : Option ObjectRef) : World :=
  { w with platforms := w.platforms.modify p.index fun s => { s with constructing := mark } }

variable {w w' : World} {p : PlatformId} {mark : Option ObjectRef} {o : ObjectRef}

/-- A mark is on its platform only. -/
theorem constructing_marked (w : World) (p q : PlatformId) (mark : Option ObjectRef) :
    ((w.marked p mark).platform q).constructing =
      if q = p ∧ p.index < w.platforms.size then mark else (w.platform q).constructing := by
  rw [marked, platform_modify]
  split <;> rfl

theorem Sane.marked (h : w.Sane) : (w.marked p mark).Sane := by
  have hplatform (q : PlatformId) := w.platform_modify p q fun s => { s with constructing := mark }
  refine h.grown List.suffix_rfl h.numbered (fun i d hd => hd) (fun id d hd => hd) rfl
    (Array.size_modify ..) (fun q => ?_) (fun q => ?_) fun q key id hentry => .inl ?_
  · rw [World.marked, hplatform]
    split <;> rfl
  · have hsound := h.accessors q
    rw [World.marked, hplatform]
    split <;> exact hsound
  · rw [World.marked, hplatform] at hentry
    split at hentry <;> exact hentry

/-- Taking a mark back leaves a later world of the one in which it was set. -/
theorem Later.unmarked (h : (w.marked p mark).Later w') :
    w.Later (w'.marked p (w.platform p).constructing) := by
  have hsize : w.platforms.size ≤ w'.platforms.size := by
    have := h.size
    rwa [World.marked, Array.size_modify] at this
  refine ⟨h.types, h.objects, h.instances, h.dispatchers, h.installed, ?_, fun q => ?_, fun q => ?_,
    fun hs => (h.sane hs.marked).marked⟩
  · rw [World.marked, Array.size_modify]
    exact hsize
  · have hoptions := h.options q
    rw [World.marked, platform_modify] at hoptions ⊢
    split at hoptions
    · split <;> exact hoptions
    · split <;> exact hoptions
  · have hconstructing := h.constructing q
    rw [constructing_marked] at hconstructing ⊢
    -- on the platform itself the mark is put back, on another one there was none to take back
    split
    · rename_i hq
      rw [hq.1]
    · rename_i hq
      rw [hconstructing, if_neg fun hq' => hq ⟨hq'.1, Nat.lt_of_lt_of_le hq'.2 hsize⟩]

end World

section

variable {α β : Type}

namespace PlatformAction

/-- A computation on the world, and then one that answers a request. -/
theorem run_lift_bind (x : Action α) (f : α → PlatformAction β) :
    (liftM x >>= f : PlatformAction β).run = x >>= fun a => (f a).run :=
  ExceptT.run_bind_lift x f

/-- A computation that answers a request, and then another one. -/
theorem agreeAt_bind {w : World} {x y : PlatformAction α} {f g : α → PlatformAction β}
    (hx : AgreeAt w x.run y.run)
    (hf : ∀ a after, w.Later after → AgreeAt after (f a).run (g a).run) :
    AgreeAt w (x >>= f).run (y >>= g).run := by
  refine AgreeAt.bind hx fun r after _ hlater => ?_
  cases r with
  | ok a => exact hf a after hlater
  | error e => exact ⟨rfl, .refl after⟩

theorem agreeAt_lift_bind {w : World} {x y : Action α} {f g : α → PlatformAction β} (hx : AgreeAt w x y)
    (hf : ∀ a after, w.Later after → AgreeAt after (f a).run (g a).run) :
    AgreeAt w (liftM x >>= f : PlatformAction β).run (liftM y >>= g : PlatformAction β).run := by
  rw [run_lift_bind, run_lift_bind]
  exact hx.bind fun a after _ hlater => hf a after hlater

theorem keeps_lift_bind {x : Action α} {f : α → PlatformAction β} (hx : Keeps x)
    (hf : ∀ a, Keeps (f a).run) : Keeps (liftM x >>= f : PlatformAction β).run := by
  rw [run_lift_bind]
  exact .bind hx hf

theorem keeps_ofHost {x : Action α} (hx : Keeps x) : Keeps (ofHost x).run := by
  refine keeps_lift_bind hx.outcome fun r => ?_
  cases r with
  | ok a => exact .pure
  | error e => exact .pure

end PlatformAction

/-- What is computed with an object marked. -/
theorem agreeAt_constructing {w : World} {p : PlatformId} {o : ObjectRef} {x y : PlatformAction α}
    (h : AgreeAt (w.marked p (some o)) x.run y.run) :
    AgreeAt w (World.constructing p o x).run (World.constructing p o y).run := by
  refine ⟨?_, h.later.unmarked⟩
  exact congrArg (fun r : _ × World => (r.1, r.2.marked p (w.platform p).constructing)) h.same

end

namespace Runner

variable {w : World} {run run' : Runner} {p : PlatformId} {proxy : TypeId} {script : ScriptType}
  {params : List ValueType} {args : List Value}

/-- Making a script object starts nothing but the constructor of its bridge, with that marked. -/
theorem agreeAt_createInstance
    (h : ∀ c o after, w.Later after → AgreeAt (after.marked p (some o)) (run (.constructor c o args))
      (run' (.constructor c o args))) :
    AgreeAt w (run.createInstance p proxy script params args).run
      (run'.createInstance p proxy script params args).run := by
  refine PlatformAction.agreeAt_lift_bind ⟨rfl, .refl w⟩ fun seen after hlater => ?_
  dsimp only
  split
  · exact ⟨rfl, .refl after⟩
  cases (seen.types.lookup? proxy).bind (·.findConstructor? params) with
  | none => exact ⟨rfl, .refl after⟩
  | some c =>
      have hallocate := PlatformAction.keeps_ofHost (World.keeps_allocate proxy)
      refine PlatformAction.agreeAt_bind ⟨rfl, hallocate after⟩ fun bridge after' hlater' => ?_
      have hconstructor := h c bridge after' (hlater.trans hlater')
      apply agreeAt_constructing
      refine PlatformAction.agreeAt_lift_bind hconstructor.outcome fun r w' _ => ⟨rfl, ?_⟩
      -- what follows the constructor runs no tasks
      cases r with
      | error e => exact Keeps.pure w'
      | ok v =>
          refine PlatformAction.keeps_lift_bind .get (fun w => ?_) w'
          refine PlatformAction.keeps_lift_bind (World.keeps_addInstance _) fun id => ?_
          refine PlatformAction.keeps_lift_bind (World.keeps_bind bridge id) fun isBound => ?_
          cases isBound with
          | true => exact .pure
          | false => exact .pure

/-- The same for a script object with a bridge of the subtype that its script type asks for. The types that
the script type extends have to be there. -/
theorem agreeAt_extend (hdeclared : w.Sane → script.Declared w.types)
    (h : ∀ c o after, w.Later after → AgreeAt (after.marked p (some o)) (run (.constructor c o args))
      (run' (.constructor c o args))) :
    AgreeAt w (run.extend p script params args).run (run'.extend p script params args).run := by
  have hcreated := (World.later_createExtensionType p .system hdeclared).1
  refine PlatformAction.agreeAt_bind ⟨rfl, hcreated⟩ fun proxy after hlater => ?_
  exact agreeAt_createInstance fun c o after' hlater' => h c o after' (hlater.trans hlater')

end Runner

/-! ## Requests -/

namespace Runner

/-- What a body asks for, unless it asks for a script object to be made. -/
theorem uniform_perform {r : Request} (h : ∀ script name, r ≠ .extend script name) :
    Uniform fun run => run.perform r := by
  by_cases hset : ∃ id name v, r = .setProperty id name v
  · obtain ⟨id, name, v, rfl⟩ := hset
    exact .of_keeps (.bind (World.keeps_setProperty id name v) fun _ => .pure)
  · exact (routine_perform h fun id name v hr => hset ⟨id, name, v, hr⟩).uniform

/-- A script object is made by the main platform, for a script type that is kept. -/
theorem agreeAt_perform_extend {run run' : Runner} {w : World} (script name : String)
    (h : ∀ c o args after, w.Later after →
      AgreeAt (after.marked w.mainPlatform (some o)) (run (.constructor c o args))
        (run' (.constructor c o args))) :
    AgreeAt w (run.perform (.extend script name)) (run'.perform (.extend script name)) := by
  refine AgreeAt.bind ⟨rfl, (World.quiet_kept _ _ _).keeps w⟩ fun s after hs _ => .of_get ?_
  obtain ⟨rfl, n, hn, rfl⟩ := World.kept_eq_ok hs
  have hextend : AgreeAt after (run.extend after.mainPlatform n.2 [] []).run
      (run'.extend after.mainPlatform n.2 [] []).run :=
    agreeAt_extend (fun hsane => hsane.scripts n hn) fun c o after' hlater => h c o [] after' hlater
  refine hextend.bind fun answer after _ _ => ⟨rfl, ?_⟩
  cases answer with
  | error e => exact Keeps.raise after
  | ok id =>
      refine Keeps.bind (World.keeps_keepInstance name id) (fun _ => .of_get fun w => ?_) after
      cases w.instances[id.index]? with
      | none => exact .pure
      | some i => exact .pure

end Runner

/-! ## Bodies and tasks -/

namespace Runner

/-- Runs a program whose requests are answered in a given way. -/
def programWith (perform : Request → Action Value) : Program → Action Value
  | .done v => return v
  | .fail e => Action.raise e
  | .ask held r next => do
    let answer ← Action.outcome (World.holding (held.flatMap (·.holders)) (perform r))
    programWith perform (next answer)

/-- Runs a task whose program has its requests answered in a given way. -/
def runTaskWith (run : Runner) (perform : Request → Action Value) (steps : Nat) (task : Task) :
    Action Value :=
  match task with
  | .method m this args =>
    match m.body with
    | .native body => do
      checkCount m.text m.params args
      programWith perform (body this args)
    | _ => run.runTask steps task
  | .constructor c this args =>
    match c.body with
    | .native body => do
      checkCount c.text c.params args
      let _ ← programWith perform (body this args)
      return .void
    | _ => run.runTask steps task
  | .dispatch d this operation args => do
    match (← get).dispatchers[d.index]? with
    | none => Action.raise (.nullPointer "dispatcher")
    | some (.routing p) => run.dispatchRouted p this operation args
    | some (.custom body) =>
      World.holding (args.flatMap (·.holders)) (programWith perform (body this operation args))
  | .function f id args =>
    match f with
    | .imported _ => run.runTask steps task
    | .scripted _ _ body => do
      match (← get).instances[id.index]? with
      | none => Action.raise (.nullPointer "instance")
      | some i =>
        match ← Action.outcome (programWith perform (body id i.bridge args)) with
        | .ok v => return v
        | .error e => Action.raise (.script (.ofHostError e))

variable {D : World → Prop} {run run' : Runner} {perform perform' : Request → Action Value} {w : World}

/-- A program runs as it does where a runner answers its requests. -/
theorem programWith_perform (run : Runner) (b : Program) : programWith run.perform b = run.program b := by
  induction b with
  | done v => rfl
  | fail e => rfl
  | ask held r next ih =>
      rw [programWith, program]
      exact congrArg _ (funext ih)

/-- Programs do the same if all their requests are answered alike. -/
theorem agreeAt_programWith (hlasts : Action.Lasts D)
    (hperform : ∀ r w, D w → AgreeAt w (perform r) (perform' r)) (b : Program) (hw : D w) :
    AgreeAt w (programWith perform b) (programWith perform' b) := by
  induction b generalizing w with
  | done v => exact ⟨rfl, .refl w⟩
  | fail e => exact ⟨rfl, .refl w⟩
  | ask held r next ih =>
      have hheld : D { w with held := held.flatMap (·.holders) ++ w.held } :=
        hlasts w _ hw (.of_held w _)
      refine (hperform r _ hheld).holding.outcome.bind fun answer after _ hlater => ?_
      exact ih answer (hlasts w after hw hlater)

/-- A task does nothing but to start other tasks and to have requests answered. -/
theorem agreeAt_runTaskWith (hlasts : Action.Lasts D) (hagree : Action.Agree D run run')
    (hperform : ∀ r w, D w → AgreeAt w (run.perform r) (perform r)) (steps : Nat) (task : Task) (hw : D w) :
    AgreeAt w (run.runTask steps task) (run'.runTaskWith perform steps task) := by
  have hprogram {w : World} (b : Program) (hw : D w) :
      AgreeAt w (run.program b) (programWith perform b) :=
    programWith_perform run b ▸ agreeAt_programWith hlasts hperform b hw
  cases task with
  | method m this args =>
      rw [runTaskWith, runTask, runTask]
      have hcount := (quiet_checkCount m.text m.params args).keeps w
      cases m.body with
      | abstract => exact AgreeAt.bind ⟨rfl, hcount⟩ fun _ after _ _ => ⟨rfl, .refl after⟩
      | native body =>
          exact AgreeAt.bind ⟨rfl, hcount⟩ fun _ after _ hlater => hprogram _ (hlasts w after hw hlater)
      | compiled unit =>
          refine AgreeAt.bind ⟨rfl, hcount⟩ fun _ after _ hlater => ?_
          exact (unit.routine_run steps this args).uniform after D run run' hlasts (hlasts w after hw hlater) hagree
  | constructor c this args =>
      rw [runTaskWith, runTask, runTask]
      have hcount := (quiet_checkCount c.text c.params args).keeps w
      cases c.body with
      | native body =>
          refine AgreeAt.bind ⟨rfl, hcount⟩ fun _ after _ hlater => ?_
          exact (hprogram _ (hlasts w after hw hlater)).bind fun _ after' _ _ => ⟨rfl, .refl after'⟩
      | inherited parent =>
          refine AgreeAt.bind ⟨rfl, hcount⟩ fun _ after _ hlater => ?_
          cases parent with
          | none => exact ⟨rfl, .refl after⟩
          | some parent => exact hagree _ after (hlasts w after hw hlater)
      | compiled unit =>
          refine AgreeAt.bind ⟨rfl, hcount⟩ fun _ after _ hlater => ?_
          have hrun := (unit.routine_run steps this args).uniform after D run run' hlasts (hlasts w after hw hlater)
            hagree
          exact hrun.bind fun _ after' _ _ => ⟨rfl, .refl after'⟩
  | dispatch d this operation args =>
      refine .of_get ?_
      cases w.dispatchers[d.index]? with
      | none => exact ⟨rfl, .refl w⟩
      | some dispatcher =>
          cases dispatcher with
          | routing p => exact (routine_dispatchRouted p this operation args).uniform w D run run' hlasts hw hagree
          | custom body =>
              have hheld := hlasts w _ hw (.of_held w (args.flatMap (·.holders) ++ w.held))
              exact (hprogram _ hheld).holding
  | function f id args =>
      cases f with
      | imported source => exact ⟨rfl, .refl w⟩
      | scripted name arity body =>
          refine .of_get ?_
          cases w.instances[id.index]? with
          | none => exact ⟨rfl, .refl w⟩
          | some i =>
              refine (hprogram _ hw).outcome.bind fun answer after _ _ => ?_
              cases answer with
              | ok v => exact ⟨rfl, .refl after⟩
              | error e => exact ⟨rfl, .refl after⟩

end Runner

/-- What a body asks for leaves a later world if the tasks do that are run for it. -/
theorem Runner.agreeAt_perform {run : Runner} (h : ∀ task w, AgreeAt w (run task) (run task)) (r : Request)
    (w : World) : AgreeAt w (run.perform r) (run.perform r) := by
  by_cases hextend : ∃ script name, r = .extend script name
  · obtain ⟨script, name, rfl⟩ := hextend
    exact agreeAt_perform_extend script name fun c o args after _ => h _ _
  · have huniform := uniform_perform fun script name h => hextend ⟨script, name, h⟩
    exact huniform w (fun _ => True) _ _ (fun _ _ _ _ => trivial) trivial fun task w _ => h task w

/-- A run leaves a later world. -/
theorem agreeAt_exec (steps depth : Nat) (task : Task) (w : World) :
    AgreeAt w (exec steps depth task) (exec steps depth task) := by
  -- the tasks that a task starts run one level deeper
  induction depth generalizing task w with
  | zero => exact ⟨rfl, .refl w⟩
  | succ depth ih =>
      have hlasts : Action.Lasts fun _ => True := fun _ _ _ _ => trivial
      have hagree : Action.Agree (fun _ => True) (exec steps depth) (exec steps depth) :=
        fun task w _ => ih task w
      have hperform (r : Request) (w : World) (_ : True) := Runner.agreeAt_perform ih r w
      exact (Runner.agreeAt_runTaskWith hlasts hagree hperform steps task trivial).left.holding

section

variable {w : World} {steps depth : Nat}

/-- So does everything that does nothing but to run tasks. -/
theorem Action.Uniform.later {α : Type} {x : Runner → Action α} (hx : Uniform x) (steps depth : Nat) (w : World) :
    w.Later (x (exec steps depth) w).2 :=
  (hx w (fun _ => True) _ _ (fun _ _ _ _ => trivial) trivial fun task w _ => agreeAt_exec steps depth task w).later

theorem Runner.later_perform (steps depth : Nat) (r : Request) (w : World) :
    w.Later ((exec steps depth).perform r w).2 :=
  (agreeAt_perform (agreeAt_exec steps depth) r w).later

variable {p : PlatformId} {script : ScriptType} {params : List ValueType} {args : List Value}

/-- Making a script object leaves a later world. -/
theorem Runner.later_createInstance {after : World} {proxy : TypeId}
    {r : Except Halt (Except PlatformError InstanceId)}
    (h : (exec steps depth).createInstance p proxy script params args w = (r, after)) : w.Later after := by
  have hagree : AgreeAt w ((exec steps depth).createInstance p proxy script params args).run
      ((exec steps depth).createInstance p proxy script params args).run :=
    agreeAt_createInstance fun c o after _ => agreeAt_exec steps depth _ _
  have hlater := hagree.later
  rw [ExceptT.run, h] at hlater
  exact hlater

/-- So it does if the subtype is asked for first, of types that are there. -/
theorem Runner.later_extend (hdeclared : w.Sane → script.Declared w.types) :
    w.Later ((exec steps depth).extend p script params args w).2 := by
  have hagree : AgreeAt w ((exec steps depth).extend p script params args).run
      ((exec steps depth).extend p script params args).run :=
    agreeAt_extend hdeclared fun c o after _ => agreeAt_exec steps depth _ _
  exact hagree.later

end

end Interpose
