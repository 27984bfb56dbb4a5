import Interpose.Proofs.Constructions

/-!
# The mark of what is under construction

Each platform has room for one mark only, which the making of a script object sets before the constructor of
its bridge and puts back after it, however that ends. So whatever is run leaves all marks as they were. And
as long as the constructor of a bridge runs, its bridge is the one that is marked, at every moment that is not
within the constructor of another one: a machine that looks at the mark whenever a task starts and whenever
a body asks for something, and gives an alarm if it is another one, does the same as the machine that does not
look.
-/

namespace Interpose

open Interpose.Action (AgreeAt)

/-! ## Marks that stay -/

/-- Whether each platform has the same object marked in a world as in another one. -/
def World.KeepsMarks (w w' : World) : Prop :=
  ∀ q, (w'.platform q).constructing = (w.platform q).constructing

theorem World.Later.keepsMarks {w w' : World} (h : w.Later w') : w.KeepsMarks w' := h.constructing

theorem World.KeepsMarks.trans {w w' w'' : World} (h : w.KeepsMarks w') (h' : w'.KeepsMarks w'') :
    w.KeepsMarks w'' :=
  fun q => (h' q).trans (h q)

/-- A request for a subtype keeps the marks. -/
theorem World.keepsMarks_createExtensionType (p : PlatformId) (base : TypeId)
    (interfaces properties : List TypeId) (parent : Loader) (w : World) :
    w.KeepsMarks (w.createExtensionType p base interfaces properties parent).2 := by
  intro q
  obtain ⟨r, hr⟩ := w.platform_createExtensionType p q base interfaces properties parent
  rw [hr]

section

variable (steps depth : Nat) (w : World)

/-- Making a script object keeps the marks, however it ends. -/
theorem Runner.keepsMarks_createInstance (p : PlatformId) (proxy : TypeId) (script : ScriptType)
    (params : List ValueType) (args : List Value) :
    w.KeepsMarks ((exec steps depth).createInstance p proxy script params args w).2 :=
  (Runner.later_createInstance rfl).keepsMarks

/-- So it does if the subtype is asked for first. -/
theorem Runner.keepsMarks_extend (p : PlatformId) (script : ScriptType) (params : List ValueType)
    (args : List Value) : w.KeepsMarks ((exec steps depth).extend p script params args w).2 := by
  have hcreated := w.keepsMarks_createExtensionType p script.base script.interfaces script.propertyInterfaces .system
  rcases hproxy : w.createExtensionType p script.base script.interfaces script.propertyInterfaces .system with
    ⟨r, after⟩
  rw [hproxy] at hcreated
  rw [Runner.extend_apply hproxy]
  cases r with
  | error e => exact hcreated
  | ok proxy => exact hcreated.trans (keepsMarks_createInstance steps depth after p proxy script params args)

/-- Whatever a task does, it keeps the marks. -/
theorem keepsMarks_exec (task : Task) : w.KeepsMarks (exec steps depth task w).2 :=
  (agreeAt_exec steps depth task w).later.keepsMarks

/-- Before each instruction that a body executes the marks are what they were at first. -/
theorem CompiledBody.keepsMarks_trace (unit : CompiledBody) (n : Nat) (s : State) :
    ∀ m ∈ unit.trace (exec steps depth) n s w, w.KeepsMarks m.world := by
  induction n generalizing s w with
  | zero => exact fun m hm => absurd hm List.not_mem_nil
  | succ n ih =>
      cases s with
      | returned v => exact fun m hm => absurd hm List.not_mem_nil
      | «at» pc f =>
          have hstep := (unit.routine_advance pc f).uniform.later steps depth w
          intro m hm
          rw [trace] at hm
          split at hm
          · cases hm
          rcases List.mem_cons.1 hm with rfl | hm
          · exact fun _ => rfl
          · rcases hadvance : unit.advance (exec steps depth) pc f w with ⟨e | s, after⟩
            all_goals rw [hadvance] at hm hstep
            · cases hm
            · exact hstep.keepsMarks.trans (ih after s m hm)

end

/-! ## A machine that looks at the mark -/

namespace Runner

/-- What is done while some objects are under construction, unless a platform has another one marked than the first
of them; then an alarm is given. -/
def unlessOther (alarm : Action Value) (p : PlatformId) (pending : List ObjectRef) (x : Action Value) :
    Action Value := do
  if ((← get).platform p).constructing = pending.head? then x else alarm

/-- Runs a task while some objects are under construction, the last one first, and looks at the mark of a platform when
a task starts and when a body asks for something. The bridge of a script object that the platform makes is under
construction while its constructor runs. -/
def watched (alarm : Action Value) (p : PlatformId) (steps : Nat) : Nat → List ObjectRef → Runner
  | 0, _ => fun _ => throw .exhausted
  | depth + 1, pending => fun task => World.holding task.holders do
    let run := watched alarm p steps depth pending
    let perform (r : Request) : Action Value := unlessOther alarm p pending
      (run.performOpening (opening (watched alarm p steps depth) pending) p r)
    unlessOther alarm p pending (run.runTaskWith perform steps task)

variable {alarm : Action Value} {p : PlatformId} {pending : List ObjectRef} {w : World}

/-- No alarm is given while the first object is the one that is marked. -/
theorem unlessOther_apply (h : Marks p pending w) (x : Action Value) :
    unlessOther alarm p pending x w = x w := by
  rw [unlessOther, Action.bind_apply_ok (Action.get_apply w), if_pos h.2]

/-- The machine that looks at the mark never gives the alarm. -/
theorem agreeAt_watched (alarm : Action Value) (p : PlatformId) (steps depth : Nat) (pending : List ObjectRef)
    (task : Task) (w : World) (hw : Marks p pending w) :
    AgreeAt w (exec steps depth task) (watched alarm p steps depth pending task) := by
  -- for every list at once, since the constructors of bridges are run with a longer one
  induction depth generalizing pending task w with
  | zero => exact ⟨rfl, .refl w⟩
  | succ depth ih =>
      refine AgreeAt.holding ?_
      have hheld : Marks p pending { w with held := task.holders ++ w.held } := hw
      have hagree : Action.Agree (Marks p pending) (exec steps depth) (watched alarm p steps depth pending) :=
        fun task w hw => ih pending task w hw
      have hperform (r : Request) (w : World) (hw : Marks p pending w) :
          AgreeAt w ((exec steps depth).perform r) (unlessOther alarm p pending
            ((watched alarm p steps depth pending).performOpening
              (opening (watched alarm p steps depth) pending) p r)) :=
        (agreeAt_performOpening hagree (fun c o args w hw => ih (o :: pending) _ w hw) r hw).congr
          (unlessOther_apply hw _)
      exact (agreeAt_runTaskWith (lasts_marks p pending) hagree hperform steps task hheld).congr
        (unlessOther_apply hheld _)

/-- Script objects are made alike, with the bridge first in the list. -/
theorem createInstance_watched (hp : p.index < w.platforms.size) (steps depth : Nat) (proxy : TypeId)
    (script : ScriptType) (params : List ValueType) (args : List Value) :
    (exec steps depth).createInstance p proxy script params args w =
      (opening (watched alarm p steps depth) pending).createInstance p proxy script params args w := by
  have hmade : AgreeAt w ((exec steps depth).createInstance p proxy script params args).run
      ((opening (watched alarm p steps depth) pending).createInstance p proxy script params args).run :=
    agreeAt_createInstance fun c o after hlater =>
      agreeAt_watched alarm p steps depth (o :: pending) _ _ (marks_marked (Nat.lt_of_lt_of_le hp hlater.size))
  exact hmade.same

end Runner

/-- **The mark of construction.** Tasks, the instructions of bodies, and the making of script objects with a given
subtype or with one that is asked for first leave each platform with the object marked that it had marked before,
however they end. While a platform has the first of some objects under construction marked, or none if there are none,
all that runs goes on with that one marked, at every task that starts and everything that a body asks for; only while
the constructor of a bridge runs that the platform starts, it is that bridge. A machine that watches for this with any
alarm does the same as the one that does not. -/
theorem World.marks_balanced (steps depth : Nat) (w : World) :
    (∀ task, w.KeepsMarks (exec steps depth task w).2) ∧
    (∀ (unit : CompiledBody) n s, ∀ m ∈ unit.trace (exec steps depth) n s w, w.KeepsMarks m.world) ∧
    (∀ p proxy script params args,
      w.KeepsMarks ((exec steps depth).createInstance p proxy script params args w).2) ∧
    (∀ p script params args, w.KeepsMarks ((exec steps depth).extend p script params args w).2) ∧
    ∀ p pending alarm, p.index < w.platforms.size → (w.platform p).constructing = pending.head? →
      (∀ task, exec steps depth task w = Runner.watched alarm p steps depth pending task w) ∧
      (∀ proxy script params args, (exec steps depth).createInstance p proxy script params args w =
        (Runner.opening (Runner.watched alarm p steps depth) pending).createInstance p proxy script params args w) ∧
      ∀ script params args, (exec steps depth).extend p script params args w =
        (Runner.opening (Runner.watched alarm p steps depth) pending).extend p script params args w := by
  refine ⟨keepsMarks_exec steps depth w, CompiledBody.keepsMarks_trace steps depth w,
    Runner.keepsMarks_createInstance steps depth w, Runner.keepsMarks_extend steps depth w,
    fun p pending alarm hp h => ⟨fun task => ?_, fun proxy script params args => ?_, fun script params args => ?_⟩⟩
  · exact (Runner.agreeAt_watched alarm p steps depth pending task w ⟨hp, h⟩).same
  · exact Runner.createInstance_watched hp steps depth proxy script params args
  · refine Runner.extend_congr fun proxy => ?_
    -- the subtype may be generated first, which adds no platform
    rw [← w.size_createExtensionType p script.base script.interfaces script.propertyInterfaces .system] at hp
    exact Runner.createInstance_watched hp steps depth proxy script params args

/-! ## A constructor that goes on after the failure of another one -/

/-- A constructor that fails. -/
def failing : Constructor :=
  ⟨[], .public, "Gauge", .native fun _ _ => .fail (.unsupported "construction")⟩

/-- A constructor that has another object made, and goes on if that fails: it reports if its own object is under
construction then. -/
def retrying : Constructor :=
  ⟨[.reference stringName], .public, "Gauge", .native fun this _ =>
    .ask [] (.extend "Script" "inner") fun
      | .ok _ => .done .void
      | .error _ => .ask [] (.isConstructing this) fun
        | .ok (.prim (.boolean true)) => .ask [] (.log "still under construction") fun _ => .done .void
        | _ => .done .void⟩

/-- A class with both constructors. -/
def faltering : HostType :=
  { valve with constructors := [failing, retrying] }

/-- The world with the class and a script type below it. -/
def falteringWorld : World :=
  { World.initial { verifyCode := false } with
    types := faltering :: TypeTable.initial
    names := { platforms := [(PlatformId.mainName, .first)], scripts := [("Script", valveScript)] } }

/-- Makes a script object by the second constructor in a world with the subtype. -/
def World.retry (w : World) : Except Halt (Except PlatformError InstanceId) × World :=
  (exec 20 6).createInstance .first ⟨4⟩ valveScript [.reference stringName] [.str "outer"]
    (w.remembering .first (Registry.generated {} (CacheKey.of faltering.id [] [] .system) ⟨4⟩))

/-- Whether its bridge is reported to be under construction after the first constructor has failed. -/
def World.ReportsMark (w : World) : Prop := w.retry.2.log = #["still under construction"]

instance : DecidablePred World.ReportsMark := fun _ => inferInstanceAs (Decidable (_ = _))

/-- It does so in the world that the subtype is generated in. -/
theorem log_extend_faltering :
    ((exec 20 6).extend .first valveScript [.reference stringName] [.str "outer"] falteringWorld).2.log =
      #["still under construction"] := by
  have hgenerate : ∃ w : World, World.generate ⟨.weave, false⟩ faltering.id [] [] .system (some ⟨0⟩) falteringWorld =
      (.ok ⟨4⟩, w) ∧ w.ReportsMark := by
    apply World.exists_generate (P := World.ReportsMark)
    · rfl
    · rfl
    · rw [TypeTable.harvestAbstract, TypeTable.harvest, TypeTable.interfaceList, TypeTable.extendFound]
      rfl
    · rfl
    · exact TypeTable.harvest_singleton rfl rfl rfl
    · apply exists_eq_ok_of_decide (P := fun w : World => World.ReportsMark { w with installed := _ })
      decide +kernel
    · rfl
  obtain ⟨w, hw, h⟩ := hgenerate
  have hextend : (exec 20 6).extend .first valveScript [.reference stringName] [.str "outer"] falteringWorld =
      w.retry := Runner.extend_apply_of_generate rfl rfl rfl hw
  rw [hextend]
  exact h

/-- The machine that watches goes on as well after the inner constructor has failed, and nothing is marked in the
end. -/
theorem World.marks_balanced_faltering : (falteringWorld.platform .first).constructing = none ∧
    ((Runner.opening (Runner.watched (throw .exhausted) .first 20 6) []).extend .first valveScript
      [.reference stringName] [.str "outer"] falteringWorld).2.log = #["still under construction"] ∧
    (((exec 20 6).extend .first valveScript [.reference stringName] [.str "outer"]
      falteringWorld).2.platform .first).constructing = none := by
  obtain ⟨-, -, -, hextend, hwatched⟩ := World.marks_balanced 20 6 falteringWorld
  have hidle : (falteringWorld.platform .first).constructing = ([] : List ObjectRef).head? := rfl
  obtain ⟨-, -, hsame⟩ := hwatched .first [] (throw .exhausted) (by decide) hidle
  refine ⟨rfl, ?_, hextend .first valveScript [.reference stringName] [.str "outer"] .first⟩
  rw [← hsame]
  exact log_extend_faltering

end Interpose
