import Interpose.Proofs.Runs

/-!
# Invariants of runs

Whatever runs changes the world through few operations: objects are allocated, given fields and bound, script
objects are added and given properties, accessors are looked up, bridges are marked while their constructors run,
subtypes are asked for, and things are held, reported and put into arrays. A property of worlds that each of
these operations keeps is kept by every instruction and every request, and so by every run, however deep its
calls nest and however it ends.
-/

namespace Interpose

/-- Whether a property of worlds is kept by everything that a run does to a world besides setting properties. It must
not rest on what is held or reported, on arrays, on the identities that were given out or on the names of script
objects. -/
structure World.KeptAside (P : World → Prop) : Prop where
  rest : ∀ {w : World} held arrays issued log instances, P w →
    P { w with held := held, arrays := arrays, issued := issued, log := log,
               names := { w.names with instances := instances } }
  allocate : ∀ {w : World} cls, P w → P (World.allocate cls w).2
  setField : ∀ {w : World} o name v, P w → P (World.setField o name v w).2
  bind : ∀ {w : World} o id, P w → P (World.bind o id w).2
  boundTo : ∀ {w : World} o, P w → P (World.boundTo o w).2
  addInstance : ∀ {w : World} i, P w → P (World.addInstance i w).2
  resolve : ∀ {w : World} p real op, P w → P (Runner.resolve p real op w).2
  marked : ∀ {w : World} p mark, P w → P (w.marked p mark)
  request : ∀ {w : World} p, ∀ n ∈ w.names.scripts, P w →
    P (w.createExtensionType p n.2.base n.2.interfaces n.2.propertyInterfaces .system).2

/-- Whether a property of worlds is kept by everything that a run does to a world. -/
structure World.Invariant (P : World → Prop) : Prop extends World.KeptAside P where
  setProperty : ∀ {w : World} id name v, P w → P (World.setProperty id name v w).2

namespace Action

variable {α β : Type} {P : World → Prop} {w : World} {x : Action α} {f : α → Action β}

/-- Whether a computation keeps a property in a world. -/
def PreservesAt (P : World → Prop) (w : World) (x : Action α) : Prop := P w → P (x w).2

/-- Whether a computation keeps a property of worlds. -/
def Preserves (P : World → Prop) (x : Action α) : Prop := ∀ w, PreservesAt P w x

theorem Preserves.pure {a : α} : Preserves P (pure a) := fun _ hw => hw

theorem Preserves.raise {e : HostError} : Preserves P (raise e : Action α) := fun _ hw => hw

theorem Preserves.halt {e : Halt} : Preserves P (throw e : Action α) := fun _ hw => hw

theorem Preserves.get : Preserves P (get : Action World) := fun _ hw => hw

theorem PreservesAt.bind (hx : PreservesAt P w x)
    (hf : ∀ a after, x w = (.ok a, after) → PreservesAt P after (f a)) : PreservesAt P w (x >>= f) := by
  intro hw
  have hafter := hx hw
  rw [bind_apply]
  rcases hrun : x w with ⟨_ | a, after⟩
  all_goals rw [hrun] at hafter
  · exact hafter
  · exact hf a after hrun hafter

theorem Preserves.bind (hx : Preserves P x) (hf : ∀ a, Preserves P (f a)) : Preserves P (x >>= f) :=
  fun w => (hx w).bind fun a after _ => hf a after

/-- A computation that looks at the world and then changes it depends on the world it looks at. -/
theorem PreservesAt.of_get {g : World → Action α} (h : PreservesAt P w (g w)) :
    PreservesAt P w ((MonadState.get : Action World) >>= g) := by
  rwa [PreservesAt, bind_apply_ok (get_apply w)]

theorem PreservesAt.outcome (hx : PreservesAt P w x) : PreservesAt P w (outcome x) := by
  intro hw
  have hafter := hx hw
  rw [Action.outcome]
  rcases hrun : x w with ⟨(_ | e) | a, after⟩
  all_goals
    rw [hrun] at hafter
    exact hafter

theorem Preserves.outcome (hx : Preserves P x) : Preserves P (outcome x) := fun w => (hx w).outcome

/-- What is held makes no difference. -/
theorem Preserves.holding (hP : World.KeptAside P) (hs : List Holder) (hx : Preserves P x) :
    Preserves P (World.holding hs x) := by
  intro w hw
  let after := (x { w with held := hs ++ w.held }).2
  have hafter : P after := hx _ (hP.rest _ w.arrays w.issued w.log w.names.instances hw)
  exact hP.rest w.held after.arrays after.issued after.log after.names.instances hafter

end Action

open Interpose.Action (Preserves PreservesAt)

/-- Whether every task keeps a property of worlds. -/
def Runner.Preserves (P : World → Prop) (run : Runner) : Prop := ∀ task, Action.Preserves P (run task)

variable {P : World → Prop}

/-! ## Routines -/

namespace Action

variable {α : Type}

/-- What leaves the world as it is keeps everything. -/
theorem Quiet.preserves {x : Action α} (h : x.Quiet) : Preserves P x := by
  intro w hw
  rwa [h w]

variable (hP : World.KeptAside P)
include hP

theorem Elementary.preserves {x : Action α} (h : x.Elementary) : Preserves P x := by
  intro w hw
  cases h with
  | quiet h => exact h.preserves w hw
  | newArray items => exact hP.rest w.held _ w.issued w.log w.names.instances hw
  | storeItem id i v => exact hP.rest w.held _ w.issued w.log w.names.instances hw
  | issue => exact hP.rest w.held w.arrays _ w.log w.names.instances hw
  | report text => exact hP.rest w.held w.arrays w.issued _ w.names.instances hw
  | allocate cls => exact hP.allocate cls hw
  | setField o name v => exact hP.setField o name v hw
  | bindTo o id => exact hP.bind o id hw
  | boundTo o => exact hP.boundTo o hw
  | resolve p real op => exact hP.resolve p real op hw

/-- A routine keeps what every task that it starts keeps. -/
theorem Routine.preserves {x : Runner → Action α} {run : Runner} (h : Routine x) (hrun : run.Preserves P) :
    Preserves P (x run) := by
  induction h with
  | elementary h => exact h.preserves hP
  | task task => exact hrun task
  | bind _ _ ihx ihf => exact .bind ihx ihf
  | outcome _ ih => exact ih.outcome
  | holding hs _ ih => exact .holding hP hs ih

end Action

theorem World.preserves_keepInstance (hP : World.KeptAside P) (name : String) (id : InstanceId) :
    Action.Preserves P (keepInstance name id) :=
  fun w hw => hP.rest w.held w.arrays w.issued w.log _ hw

/-! ## Construction -/

namespace PlatformAction

variable {α β : Type}

/-- A computation that answers a request, and then another one. -/
theorem preservesAt_bind {w : World} {x : PlatformAction α} {f : α → PlatformAction β}
    (hx : PreservesAt P w x.run) (hf : ∀ a, Preserves P (f a).run) : PreservesAt P w (x >>= f).run := by
  refine PreservesAt.bind hx fun r after _ => ?_
  cases r with
  | ok a => exact hf a after
  | error e => exact Preserves.pure after

/-- A computation on the world, and then one that answers a request. -/
theorem preservesAt_lift_bind {w : World} {x : Action α} {f : α → PlatformAction β} (hx : PreservesAt P w x)
    (hf : ∀ a, Preserves P (f a).run) : PreservesAt P w (liftM x >>= f : PlatformAction β).run := by
  rw [run_lift_bind]
  exact hx.bind fun a after _ => hf a after

theorem preserves_lift_bind {x : Action α} {f : α → PlatformAction β} (hx : Preserves P x)
    (hf : ∀ a, Preserves P (f a).run) : Preserves P (liftM x >>= f : PlatformAction β).run :=
  fun w => preservesAt_lift_bind (hx w) hf

/-- A computation that looks at the world first depends on the world it looks at. -/
theorem preservesAt_get_bind {w : World} {f : World → PlatformAction β} (h : PreservesAt P w (f w).run) :
    PreservesAt P w (liftM (get : Action World) >>= f : PlatformAction β).run := by
  rw [run_lift_bind]
  exact .of_get h

theorem preserves_ofHost {x : Action α} (hx : Preserves P x) : Preserves P (ofHost x).run := by
  refine preserves_lift_bind hx.outcome fun r => ?_
  cases r with
  | ok a => exact .pure
  | error e => exact .pure

end PlatformAction

section

variable (hP : World.KeptAside P)
include hP

/-- What is computed with an object marked, and the mark put back. -/
theorem World.preserves_constructing {α : Type} {p : PlatformId} {o : ObjectRef} {x : PlatformAction α}
    (hx : Preserves P x.run) : Preserves P (World.constructing p o x).run :=
  fun w hw => hP.marked p (w.platform p).constructing (hx _ (hP.marked p (some o) hw))

namespace Runner

variable {run : Runner} (hrun : run.Preserves P)
include hrun

theorem preserves_createInstance (p : PlatformId) (proxy : TypeId) (script : ScriptType) (params : List ValueType)
    (args : List Value) : Action.Preserves P (run.createInstance p proxy script params args).run := by
  refine PlatformAction.preserves_lift_bind .get fun w => ?_
  dsimp only
  split
  · exact .pure
  split
  · exact .pure
  · have hallocate : Action.Preserves P (World.allocate proxy) := fun _ => hP.allocate proxy
    refine fun w => PlatformAction.preservesAt_bind (PlatformAction.preserves_ofHost hallocate w) fun bridge =>
      World.preserves_constructing hP ?_
    refine PlatformAction.preserves_lift_bind (hrun _).outcome fun r => ?_
    cases r with
    | error e => exact .pure
    | ok v =>
        refine PlatformAction.preserves_lift_bind .get fun w => ?_
        refine PlatformAction.preserves_lift_bind (fun _ => hP.addInstance _) fun id => ?_
        refine PlatformAction.preserves_lift_bind (fun _ => hP.bind bridge id) fun isBound => ?_
        cases isBound with
        | true => exact .pure
        | false => exact .pure

/-- The subtype that a script type asks for may be generated first. -/
theorem preservesAt_extend {w : World} {p : PlatformId} {script : ScriptType}
    (hrequest : P w →
      P (w.createExtensionType p script.base script.interfaces script.propertyInterfaces .system).2)
    (params : List ValueType) (args : List Value) : PreservesAt P w (run.extend p script params args).run :=
  PlatformAction.preservesAt_bind hrequest fun proxy => preserves_createInstance hP hrun p proxy script params args

end Runner

end

/-! ## Programs and tasks -/

namespace Runner

variable (hP : World.Invariant P)
include hP

section

variable {run : Runner} (hrun : run.Preserves P)
include hrun

/-- What a body asks for keeps the property. -/
theorem preserves_perform (r : Request) : Action.Preserves P (run.perform r) := by
  cases r
  case setProperty i name v => exact .bind (fun _ => hP.setProperty i name v) fun _ => .pure
  case extend script name =>
    -- the script type is one that is kept, in the world in which the subtype is asked for
    refine fun w => PreservesAt.bind ((World.quiet_kept _ _ _).preserves w) fun s after hs => ?_
    obtain ⟨rfl, n, hn, rfl⟩ := World.kept_eq_ok hs
    have hextend := preservesAt_extend hP.toKeptAside hrun (fun hw => hP.request after.mainPlatform n hn hw) [] []
    refine PreservesAt.bind (Preserves.get after) fun w after' hget => ?_
    cases hget
    refine PreservesAt.bind hextend fun answer after' _ => ?_
    cases answer with
    | error e => exact Preserves.raise after'
    | ok id =>
        have hkeep := World.preserves_keepInstance hP.toKeptAside name id
        refine Preserves.bind hkeep (fun _ => .bind .get fun w => ?_) after'
        split
        · exact .pure
        · exact .pure
  all_goals
    refine (routine_perform (fun _ _ h => ?_) fun _ _ _ h => ?_).preserves hP.toKeptAside hrun
    all_goals cases h

theorem preserves_program (b : Program) : Action.Preserves P (run.program b) := by
  induction b with
  | done v => exact .pure
  | fail e => exact .raise
  | ask held r next ih => exact .bind (Preserves.holding hP.toKeptAside _ (preserves_perform hP hrun r)).outcome ih

theorem preserves_runTask (steps : Nat) (task : Task) : Action.Preserves P (run.runTask steps task) := by
  cases task with
  | method m this args =>
      refine .bind (quiet_checkCount m.text m.params args).preserves fun _ => ?_
      split
      · exact .raise
      · exact preserves_program hP hrun _
      · exact (CompiledBody.routine_run _ steps this args).preserves hP.toKeptAside hrun
  | constructor c this args =>
      refine .bind (quiet_checkCount c.text c.params args).preserves fun _ => ?_
      split
      · exact .bind (preserves_program hP hrun _) fun _ => .pure
      · exact .pure
      · exact hrun _
      · exact .bind ((CompiledBody.routine_run _ steps this args).preserves hP.toKeptAside hrun) fun _ => .pure
  | dispatch d this operation args =>
      refine .bind .get fun w => ?_
      split
      · exact .raise
      · exact (routine_dispatchRouted _ this operation args).preserves hP.toKeptAside hrun
      · exact .holding hP.toKeptAside _ (preserves_program hP hrun _)
  | function f id args =>
      cases f with
      | imported source => exact .raise
      | scripted name arity body =>
          refine .bind .get fun w => ?_
          split
          · exact .raise
          · refine .bind (preserves_program hP hrun _).outcome fun answer => ?_
            cases answer with
            | ok v => exact .pure
            | error e => exact .raise

end

/-- Every task keeps the property, however deep its calls nest. -/
theorem preserves_exec (steps depth : Nat) : (exec steps depth).Preserves P := by
  induction depth with
  | zero => exact fun _ => .halt
  | succ depth ih => exact fun task => .holding hP.toKeptAside _ (preserves_runTask hP ih steps task)

end Runner

end Interpose
