import Interpose.Proofs.Overrides

/-!
# Calls during construction

A platform marks one object at a time: that whose constructor started last. What is under construction is
told by how calls nest. A machine that keeps the list of the objects under construction itself, the last one
first, does the same as the one that looks at the mark, if only the host answers calls on the first object of
the list and on those that are bound to nothing. An object further down the list that is bound already is
not protected: the script object that it is bound to answers its calls.
-/

namespace Interpose

open Interpose.Action (AgreeAt)

/-! ## A machine that knows what is under construction -/

/-- Tells in a world of the objects under construction, the last one first, and an object whether only the
host answers calls on it. -/
abbrev Shield := World → List ObjectRef → ObjectRef → Bool

/-- Only the host answers calls on an object under construction. -/
def Shield.all : Shield := fun _ pending o => pending.contains o

/-- Only the host answers calls on an object under construction that is the last one or bound to nothing. -/
def Shield.lastOrUnbound : Shield := fun w pending o =>
  pending.contains o && (pending.head? == some o || decide (w.Unbound o))

/-- The platform whose calls a dispatcher routes. -/
def Dispatcher.platform? : Dispatcher → Option PlatformId
  | .routing p => some p
  | .custom _ => none

namespace Runner

/-- The answer to an intercepted call, boxed. Unless only the host answers, it is that of the script object
that the receiver is bound to, if there is one. -/
def dispatchShielded (run : Runner) (p : PlatformId) (shielded : Bool) (this : ObjectRef)
    (operation : Nat) (args : List Value) : Action Value := do
  let op ← operationAt this operation
  let result ←
    if shielded then run.overridden p this op args
    else
      match ← World.holding (args.flatMap (·.holders)) (World.boundTo this) with
      | some id => World.holding [.instance id] (run.route p id op args)
      | none => run.overridden p this op args
  return result.box

/-- Runs a constructor with its object under construction as well, and other tasks as before. -/
def opening (track : List ObjectRef → Runner) (pending : List ObjectRef) : Runner
  | .constructor c o args => track (o :: pending) (.constructor c o args)
  | task => track pending task

/-- Answers what a body asks for, with a runner of its own for making script objects of a platform. -/
def performOpening (run opened : Runner) (p : PlatformId) : Request → Action Value
  | .extend script name => do
    if (← get).mainPlatform = p then opened.perform (.extend script name)
    else run.perform (.extend script name)
  | r => run.perform r

/-- Runs a task while some objects are under construction, whose calls are answered as a shield tells. The
bridge of a script object that the platform makes is under construction while its constructor runs. -/
def tracked (shield : Shield) (p : PlatformId) (steps : Nat) : Nat → List ObjectRef → Runner
  | 0, _ => fun _ => throw .exhausted
  | depth + 1, pending => fun task => World.holding task.holders do
    let w ← get
    let run := tracked shield p steps depth pending
    let perform := run.performOpening (opening (tracked shield p steps depth) pending) p
    match task with
    | .dispatch d this operation args =>
      if (w.dispatchers[d.index]?).bind (·.platform?) = some p then
        run.dispatchShielded p (shield w pending this) this operation args
      else run.runTaskWith perform steps (.dispatch d this operation args)
    | task => run.runTaskWith perform steps task

variable {run : Runner} {w : World} {p : PlatformId} {pending : List ObjectRef} {this : ObjectRef}
  {operation : Nat} {args : List Value}

/-- Which operation a call is of is looked up without changing anything. -/
theorem operationAt_apply (this : ObjectRef) (operation : Nat) (w : World) :
    ∃ r, operationAt this operation w = (r, w) := by
  rw [operationAt, Action.bind_apply_ok (Action.get_apply w)]
  cases (w.types.proxy? this.cls).bind (·.operations[operation]?) with
  | none => exact ⟨_, rfl⟩
  | some op => exact ⟨_, rfl⟩

/-- The dispatcher of a platform shields the object that is marked. -/
theorem dispatchRouted_apply (run : Runner) (p : PlatformId) (this : ObjectRef) (operation : Nat)
    (args : List Value) (w : World) :
    run.dispatchRouted p this operation args w =
      run.dispatchShielded p ((w.platform p).constructing == some this) this operation args w := by
  obtain ⟨r, hr⟩ := operationAt_apply this operation w
  cases r with
  | error e => exact (Action.bind_apply_error hr).trans (Action.bind_apply_error hr).symm
  | ok op =>
      rw [dispatchRouted, dispatchShielded, Action.bind_apply_ok hr, Action.bind_apply_ok hr,
        Action.bind_apply_ok (Action.get_apply w)]
      by_cases hmark : (w.platform p).constructing = some this
      · simp only [hmark, beq_self_eq_true, if_true]
      · have hother : ((w.platform p).constructing == some this) ≠ true := by simpa using hmark
        exact (congrFun (if_neg hmark) w).trans (congrFun (if_neg hother) w).symm

/-- A shield makes no difference to the calls of an object that is bound to nothing. -/
theorem dispatchShielded_of_unbound (h : w.Unbound this) (shielded : Bool) :
    run.dispatchShielded p shielded this operation args w =
      run.dispatchShielded p false this operation args w := by
  cases shielded with
  | false => rfl
  | true =>
      obtain ⟨r, hr⟩ := operationAt_apply this operation w
      cases r with
      | error e => exact (Action.bind_apply_error hr).trans (Action.bind_apply_error hr).symm
      | ok op =>
          rw [dispatchShielded, dispatchShielded, Action.bind_apply_ok hr, Action.bind_apply_ok hr]
          simp only [if_true, Bool.false_eq_true, if_false]
          rw [Action.bind_apply_ok (h.holding_boundTo_apply _)]

/-- While the first of the objects under construction is the one that is marked, the dispatcher of a platform
shields it and those that are bound to nothing. -/
theorem dispatchShielded_lastOrUnbound (h : (w.platform p).constructing = pending.head?) :
    run.dispatchShielded p (Shield.lastOrUnbound w pending this) this operation args w =
      run.dispatchRouted p this operation args w := by
  rw [dispatchRouted_apply, h]
  by_cases hlast : pending.head? = some this
  · have hmem : pending.contains this = true := by
      rw [List.contains_iff_mem]
      exact List.mem_of_mem_head? hlast
    rw [Shield.lastOrUnbound, hmem, hlast, beq_self_eq_true]
    rfl
  · rw [beq_eq_false_iff_ne.2 hlast]
    by_cases hunbound : w.Unbound this
    · exact dispatchShielded_of_unbound hunbound _
    · rw [Shield.lastOrUnbound, beq_eq_false_iff_ne.2 hlast, decide_eq_false hunbound, Bool.or_false,
        Bool.and_false]

/-! ## The mark and the list -/

/-- Whether the object that a platform has marked is the first of some objects under construction. -/
def Marks (p : PlatformId) (pending : List ObjectRef) (w : World) : Prop :=
  p.index < w.platforms.size ∧ (w.platform p).constructing = pending.head?

theorem lasts_marks (p : PlatformId) (pending : List ObjectRef) : Action.Lasts (Marks p pending) := by
  intro w w' h hlater
  exact ⟨Nat.lt_of_lt_of_le h.1 hlater.size, (hlater.constructing p).trans h.2⟩

/-- A bridge that is marked is first in the list with it. -/
theorem marks_marked {o : ObjectRef} (h : p.index < w.platforms.size) :
    Marks p (o :: pending) (w.marked p (some o)) := by
  refine ⟨?_, ?_⟩
  · rw [World.marked, Array.size_modify]
    exact h
  · rw [World.constructing_marked, if_pos ⟨rfl, h⟩]
    rfl

/-- A mark on another platform makes no difference. -/
theorem Marks.marked {q : PlatformId} {mark : Option ObjectRef} (h : Marks p pending w) (hq : p ≠ q) :
    Marks p pending (w.marked q mark) := by
  refine ⟨?_, ?_⟩
  · rw [World.marked, Array.size_modify]
    exact h.1
  · rw [World.constructing_marked, if_neg fun hsame => hq hsame.1]
    exact h.2

/-- Only script objects are made in another way. -/
theorem performOpening_of_ne {opened : Runner} {r : Request}
    (h : ∀ script name, r ≠ .extend script name) : run.performOpening opened p r = run.perform r := by
  cases r
  case extend script name => exact absurd rfl (h script name)
  all_goals rfl

/-- What a body asks for is answered alike if that is so for the constructors of bridges with these first in
the list, and for other tasks with the list as it is. -/
theorem agreeAt_performOpening {run' opened : Runner} (hagree : Action.Agree (Marks p pending) run run')
    (hopened : ∀ c o args w, Marks p (o :: pending) w →
      AgreeAt w (run (.constructor c o args)) (opened (.constructor c o args)))
    (r : Request) (hw : Marks p pending w) :
    AgreeAt w (run.perform r) (run'.performOpening opened p r) := by
  by_cases hextend : ∃ script name, r = .extend script name
  · obtain ⟨script, name, rfl⟩ := hextend
    by_cases hmain : w.mainPlatform = p
    · have hmade : AgreeAt w (run.perform (.extend script name)) (opened.perform (.extend script name)) := by
        -- the constructor starts with its bridge marked, so that this is first in the list
        refine agreeAt_perform_extend script name fun c o args after hlater => hopened c o args _ ?_
        rw [hmain]
        exact marks_marked (Nat.lt_of_lt_of_le hw.1 hlater.size)
      refine hmade.congr ?_
      rw [performOpening, Action.bind_apply_ok (Action.get_apply w), if_pos hmain]
    · have hmade : AgreeAt w (run.perform (.extend script name)) (run'.perform (.extend script name)) := by
        refine agreeAt_perform_extend script name fun c o args after hlater => hagree _ _ ?_
        exact (lasts_marks p pending w after hw hlater).marked (Ne.symm hmain)
      refine hmade.congr ?_
      rw [performOpening, Action.bind_apply_ok (Action.get_apply w), if_neg hmain]
  · have hother : ∀ script name, r ≠ .extend script name := fun script name h => hextend ⟨script, name, h⟩
    have hsame := uniform_perform hother w _ _ _ (lasts_marks p pending) hw hagree
    exact hsame.congr (congrFun (performOpening_of_ne hother) w)

/-- A machine that keeps the list does the same as the one that looks at the mark. -/
theorem agreeAt_tracked (p : PlatformId) (steps depth : Nat) (pending : List ObjectRef) (task : Task)
    (w : World) (hw : Marks p pending w) :
    AgreeAt w (exec steps depth task) (tracked .lastOrUnbound p steps depth pending task) := by
  -- for every list at once, since the constructors of bridges are run with a longer one
  induction depth generalizing pending task w with
  | zero => exact ⟨rfl, .refl w⟩
  | succ depth ih =>
      refine AgreeAt.holding ?_
      generalize hheld : ({ w with held := task.holders ++ w.held } : World) = held
      have hmarks : Marks p pending held := by
        rw [← hheld]
        exact hw
      have hagree : Action.Agree (Marks p pending) (exec steps depth)
          (tracked .lastOrUnbound p steps depth pending) := fun task w hw => ih pending task w hw
      have hperform (r : Request) (w : World) (hw : Marks p pending w) :
          AgreeAt w ((exec steps depth).perform r)
            ((tracked .lastOrUnbound p steps depth pending).performOpening
              (opening (tracked .lastOrUnbound p steps depth) pending) p r) :=
        agreeAt_performOpening hagree (fun c o args w hw => ih (o :: pending) _ w hw) r hw
      have hrun := agreeAt_runTaskWith (lasts_marks p pending) hagree hperform steps task hmarks
      -- only the intercepted calls of the platform are answered in another way
      cases task with
      | dispatch d this operation args =>
          by_cases hrouting : (held.dispatchers[d.index]?).bind (·.platform?) = some p
          · obtain ⟨dispatcher, hd, hp⟩ := Option.bind_eq_some_iff.1 hrouting
            cases dispatcher with
            | custom body => cases hp
            | routing q =>
                obtain rfl := Option.some.inj hp
                refine hrun.congr ?_
                rw [Action.bind_apply_ok (Action.get_apply held)]
                -- a call that this platform routes is looked at by the mark there and by the list here
                simp only [if_pos hrouting]
                rw [dispatchShielded_lastOrUnbound hmarks.2, runTaskWith,
                  Action.bind_apply_ok (Action.get_apply held)]
                simp only [hd]
          · refine hrun.congr ?_
            rw [Action.bind_apply_ok (Action.get_apply held)]
            simp only [if_neg hrouting]
      | method m this args => exact hrun
      | constructor c this args => exact hrun
      | function f id args => exact hrun

/-- A script object is made alike, with its bridge first in the list. -/
theorem agreeAt_createInstance_opening (hp : p.index < w.platforms.size) (steps depth : Nat)
    (pending : List ObjectRef) (proxy : TypeId) (script : ScriptType) (params : List ValueType)
    (args : List Value) :
    AgreeAt w ((exec steps depth).createInstance p proxy script params args).run
      ((opening (tracked .lastOrUnbound p steps depth) pending).createInstance p proxy script params
        args).run := by
  refine agreeAt_createInstance fun c o after hlater => ?_
  exact agreeAt_tracked p steps depth (o :: pending) _ _ (marks_marked (Nat.lt_of_lt_of_le hp hlater.size))

end Runner

/-- **Construction.** Let the object that a platform has marked be the first of a list of objects under
construction. Then the machine does the same as one that keeps this list itself, with the bridge of a script
object that the platform makes in it for as long as its constructor runs, and in which only the host answers
calls on the objects of the list, except for those that are bound already while the constructor of another
one runs. -/
theorem World.exec_eq_tracked {w : World} {p : PlatformId} {pending : List ObjectRef}
    (hp : p.index < w.platforms.size) (h : (w.platform p).constructing = pending.head?) (steps depth : Nat) :
    (∀ task, exec steps depth task w = Runner.tracked .lastOrUnbound p steps depth pending task w) ∧
    (∀ proxy script params args, (exec steps depth).createInstance p proxy script params args w =
      (Runner.opening (Runner.tracked .lastOrUnbound p steps depth) pending).createInstance p proxy script
        params args w) ∧
    ∀ script params args, (exec steps depth).extend p script params args w =
      (Runner.opening (Runner.tracked .lastOrUnbound p steps depth) pending).extend p script params args w := by
  refine ⟨fun task => (Runner.agreeAt_tracked p steps depth pending task w ⟨hp, h⟩).same, ?_, ?_⟩
  · intro proxy script params args
    exact (Runner.agreeAt_createInstance_opening hp steps depth pending proxy script params args).same
  · intro script params args
    refine Runner.extend_congr fun proxy => ?_
    -- the subtype may be generated first, which adds no platform
    rw [← w.size_createExtensionType p script.base script.interfaces script.propertyInterfaces .system] at hp
    exact (Runner.agreeAt_createInstance_opening hp steps depth pending proxy script params args).same

/-! ## A constructor that makes another object -/

/-- A constructor that calls the object which was made before its own, and reports the answer. -/
def callBefore : Constructor :=
  ⟨[], .public, "Gauge", .native fun this _ =>
    .ask [] (.call ⟨this.index - 1, this.cls⟩ "open" []) fun
      | .ok (.str answer) => .ask [] (.log answer) fun _ => .done .void
      | _ => .done .void⟩

/-- A constructor that binds its object to the script object of a name, if there is one, and makes another
object. -/
def bindAndExtend : Constructor :=
  ⟨[.reference stringName], .public, "Gauge", .native fun this args =>
    match args with
    | [.str name] =>
      .ask [] (.bind this name) fun _ => .ask [] (.extend "Script" "inner") fun _ => .done .void
    | _ => .done .void⟩

/-- A class with both constructors. -/
def nest : HostType :=
  { valve with constructors := [callBefore, bindAndExtend] }

/-- The world with the class and the script type that overrides its operations. -/
def nestWorld : World :=
  { World.initial { verifyCode := false } with
    types := nest :: TypeTable.initial
    names := { platforms := [(PlatformId.mainName, .first)], scripts := [("Script", valveScript)] } }

/-- Makes a script object, then a second one whose bridge binds itself to the first one, and in the
constructor of that a third one. -/
def makeNested (run : Runner) (first : PlatformAction InstanceId) : Action Unit := do
  match ← first.run with
  | .ok id => World.keepInstance "other" id
  | .error _ => return ()
  let _ ← (run.extend .first valveScript [.reference stringName] [.str "other"]).run

/-- The machine in which only the host answers calls on any object under construction. -/
def nestGuarded : Runner :=
  .opening (Runner.tracked .all .first 40 14) []

/-- Makes a script object of the class in a world with the subtype. -/
def World.constructNest (w : World) (run : Runner) (params : List ValueType) (args : List Value) :
    PlatformAction InstanceId := fun _ =>
  run.createInstance .first ⟨4⟩ valveScript params args
    (w.remembering .first (Registry.generated {} (CacheKey.of nest.id [] [] .system) ⟨4⟩))

/-- What is reported if the second object is not bound, and if it is, by the machine and by the one in which
only the host answers. -/
def World.ReportsNest (w : World) : Prop :=
  (w.constructNest (exec 40 14) [.reference stringName] [.str "nobody"] nestWorld).2.log =
    #["host opens"] ∧
  (makeNested (exec 40 14) (w.constructNest (exec 40 14) [] []) nestWorld).2.log =
    #["host opens", "script opens"] ∧
  (makeNested nestGuarded (w.constructNest nestGuarded [] []) nestWorld).2.log = #["host opens", "host opens"]

instance : DecidablePred World.ReportsNest := fun _ => inferInstanceAs (Decidable (_ ∧ _))

/-- The subtype is generated when the first object is made. -/
theorem exists_reportsNest : ∃ w : World, w.ReportsNest ∧ ∀ (run : Runner) params args,
    run.extend .first valveScript params args nestWorld = w.constructNest run params args nestWorld := by
  have hgenerate : ∃ w : World, World.generate ⟨.weave, false⟩ nest.id [] [] .system (some ⟨0⟩) nestWorld =
      (.ok ⟨4⟩, w) ∧ w.ReportsNest := by
    apply World.exists_generate (P := World.ReportsNest)
    · rfl
    · rfl
    · rw [TypeTable.harvestAbstract, TypeTable.harvest, TypeTable.interfaceList, TypeTable.extendFound]
      rfl
    · rfl
    · exact TypeTable.harvest_singleton rfl rfl rfl
    -- all three runs are evaluated here, in the world that the subtype is generated in
    · apply exists_eq_ok_of_decide (P := fun w : World => World.ReportsNest { w with installed := _ })
      decide +kernel
    · rfl
  obtain ⟨w, hw, h⟩ := hgenerate
  refine ⟨w, h, fun run params args => ?_⟩
  exact Runner.extend_apply_of_generate rfl rfl rfl hw

/-- While a second object is made in the constructor of a first one that is not bound, the host answers a
call on the first one. -/
theorem World.exec_eq_tracked_nest :
    ((exec 40 14).extend .first valveScript [.reference stringName] [.str "nobody"] nestWorld).2.log =
      #["host opens"] ∧
    ((Runner.opening (Runner.tracked .lastOrUnbound .first 40 14) []).extend .first valveScript
      [.reference stringName] [.str "nobody"] nestWorld).2.log = #["host opens"] := by
  obtain ⟨w, ⟨hlog, -⟩, hextend⟩ := exists_reportsNest
  -- nothing is under construction yet
  have hidle : (nestWorld.platform .first).constructing = ([] : List ObjectRef).head? := rfl
  obtain ⟨-, -, hsame⟩ := World.exec_eq_tracked (by decide) hidle 40 14
  rw [← hsame, hextend]
  exact ⟨hlog, hlog⟩

/-- While a third object is made in the constructor of a second one that is bound, the script object that
this is bound to answers a call on it, and not the host. -/
theorem World.exec_eq_tracked_differs : (nestWorld.platform .first).constructing = none ∧
    (makeNested (exec 40 14) ((exec 40 14).extend .first valveScript [] []) nestWorld).2.log =
      #["host opens", "script opens"] ∧
    (makeNested nestGuarded (nestGuarded.extend .first valveScript [] []) nestWorld).2.log =
      #["host opens", "host opens"] := by
  obtain ⟨w, ⟨-, hscript, hhost⟩, hextend⟩ := exists_reportsNest
  have hfirst (run : Runner) : makeNested run (run.extend .first valveScript [] []) nestWorld =
      makeNested run (w.constructNest run [] []) nestWorld := by
    have hsame : (run.extend .first valveScript [] []).run nestWorld =
        (w.constructNest run [] []).run nestWorld := hextend run [] []
    rw [makeNested, makeNested, Action.bind_apply, Action.bind_apply, hsame]
  rw [hfirst, hfirst]
  exact ⟨rfl, hscript, hhost⟩

end Interpose
