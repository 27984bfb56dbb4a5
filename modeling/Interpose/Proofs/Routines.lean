import Interpose.Machine.Exec
import Interpose.Proofs.Actions

/-!
# Routines

Whatever runs is put together from a few elementary computations and from the tasks that it starts: every instruction,
every generated body, every answer to a call and nearly every answer to a request. So what is true of the elementary
ones, and of what is put together whenever it is true of the parts, is true of all of them. Two things that a body can
ask for are told elsewhere: to have a property set, and to have a script object made, which marks a bridge.
-/

namespace Interpose

namespace Action

variable {α β : Type} {x : Action α}

/-- Whether a computation leaves the world as it is. -/
def Quiet (x : Action α) : Prop := ∀ w, (x w).2 = w

theorem Quiet.pure {a : α} : Quiet (pure a) := fun _ => rfl

theorem Quiet.halt {e : Halt} : Quiet (throw e : Action α) := fun _ => rfl

theorem Quiet.raise {e : HostError} : Quiet (raise e : Action α) := fun _ => rfl

theorem Quiet.get : Quiet (get : Action World) := fun _ => rfl

theorem Quiet.bind {f : α → Action β} (hx : Quiet x) (hf : ∀ a, Quiet (f a)) : Quiet (x >>= f) := by
  intro w
  have hsame := hx w
  rw [bind_apply]
  rcases hrun : x w with ⟨_ | a, after⟩
  all_goals
    rw [hrun] at hsame
    obtain rfl : after = w := hsame
  · rfl
  · exact hf a after

theorem Quiet.withTypes {g : TypeTable → Except HostError α} : Quiet (withTypes g) := by
  intro w
  rw [Action.withTypes]
  cases g w.types <;> rfl

/-- Computations that do a single thing to a world, or nothing. -/
inductive Elementary : {α : Type} → Action α → Prop
  | quiet {α : Type} {x : Action α} (h : x.Quiet) : Elementary x
  | newArray (items : Array Value) : Elementary (World.newArray items)
  | storeItem (id : ArrayId) (i : Nat) (v : Value) : Elementary (World.storeItem id i v)
  | issue : Elementary World.issue
  | report (text : String) : Elementary (World.report text)
  | allocate (cls : TypeId) : Elementary (World.allocate cls)
  | setField (o : ObjectRef) (name : String) (v : Value) : Elementary (World.setField o name v)
  | bindTo (o : ObjectRef) (id : InstanceId) : Elementary (World.bind o id)
  | boundTo (o : ObjectRef) : Elementary (World.boundTo o)
  | resolve (p : PlatformId) (real : TypeId) (op : Method) : Elementary (Runner.resolve p real op)

/-- Computations that are put together from elementary ones and from the tasks that they start. -/
inductive Routine : {α : Type} → (Runner → Action α) → Prop
  | elementary {α : Type} {x : Action α} (h : x.Elementary) : Routine fun _ => x
  | task (task : Task) : Routine fun run => run task
  | bind {α β : Type} {x : Runner → Action α} {f : Runner → α → Action β} (hx : Routine x)
      (hf : ∀ a, Routine fun run => f run a) : Routine fun run => x run >>= f run
  | outcome {α : Type} {x : Runner → Action α} (hx : Routine x) : Routine fun run => outcome (x run)
  | holding {α : Type} {x : Runner → Action α} (hs : List Holder) (hx : Routine x) :
      Routine fun run => World.holding hs (x run)

namespace Routine

theorem quiet (h : x.Quiet) : Routine fun _ => x := .elementary (.quiet h)

theorem pure {a : α} : Routine fun _ => (pure a : Action α) := quiet .pure

theorem raise {e : HostError} : Routine fun _ => (raise e : Action α) := quiet .raise

theorem get : Routine fun _ => (get : Action World) := quiet .get

theorem withTypes {g : TypeTable → Except HostError α} : Routine fun _ => withTypes g := quiet .withTypes

end Routine

end Action

open Interpose.Action (Quiet Routine)

/-! ## Looking around -/

namespace World

theorem quiet_itemsOf (id : ArrayId) : Quiet (itemsOf id) := .bind .get fun _ => .pure

theorem quiet_getField (o : ObjectRef) (name : String) : Quiet (getField o name) := by
  refine .bind .get fun w => ?_
  split
  · exact .pure
  · exact .raise

theorem quiet_getProperty (id : InstanceId) (name : String) : Quiet (getProperty id name) := by
  refine .bind .get fun w => ?_
  split
  · exact .raise
  · split
    · exact .pure
    · exact quiet_getField _ _
    · exact .raise

theorem quiet_kept {α : Type} (sort name : String) (names : Directory → Names α) : Quiet (kept sort name names) := by
  refine .bind .get fun w => ?_
  split
  · exact .pure
  · exact .raise

theorem quiet_keptType (name : String) : Quiet (keptType name) := by
  refine .bind .get fun w => ?_
  split
  · exact .pure
  · exact .raise

theorem quiet_keptValue (name : String) : Quiet (keptValue name) := by
  refine .bind .get fun w => ?_
  split
  · exact .pure
  · split
    · exact .pure
    · exact .raise

theorem routine_newThrowable (e : HostException) : Routine fun _ => newThrowable e :=
  .bind (.elementary .issue) fun _ => .pure

mutual

theorem routine_evaluate (l : Literal) : Routine fun _ => evaluate l := by
  cases l with
  | value v => exact .pure
  | array items => exact .bind (routine_evaluateAll items) fun _ => .elementary (.newArray _)
  | throwable e => exact routine_newThrowable e
  | interpreter name => exact .quiet (.bind (quiet_kept _ _ _) fun _ => .pure)
  | token => exact .bind (.elementary .issue) fun _ => .pure
  | dispatcher name => exact .quiet (.bind (quiet_kept _ _ _) fun _ => .pure)
  | ref name => exact .quiet (quiet_keptValue name)

theorem routine_evaluateAll (items : List Literal) : Routine fun _ => evaluateAll items := by
  cases items with
  | nil => exact .pure
  | cons l rest => exact .bind (routine_evaluate l) fun _ => .bind (routine_evaluateAll rest) fun _ => .pure

end

end World

/-! ## Calls -/

namespace Runner

theorem routine_invoke (o : ObjectRef) (slot : Slot) (args : List Value) :
    Routine fun run => run.invoke o slot args := by
  refine .bind .get fun w => ?_
  dsimp only
  split
  · exact .task _
  · exact .raise

theorem routine_call (o : ObjectRef) (name : String) (args : List Value) :
    Routine fun run => run.call o name args := by
  refine .bind .get fun w => ?_
  dsimp only
  split
  · exact .task _
  · exact .raise

theorem routine_construct (cls : TypeId) (params : List ValueType) (args : List Value) :
    Routine fun run => run.construct cls params args := by
  refine .bind .get fun w => ?_
  dsimp only
  split
  · exact .raise
  · exact .bind (.elementary (.allocate cls)) fun o => .bind (.task _) fun _ => .pure

theorem quiet_operationAt (o : ObjectRef) (operation : Nat) : Quiet (operationAt o operation) := by
  refine .bind .get fun w => ?_
  dsimp only
  split
  · exact .pure
  · exact .raise

theorem routine_runAccessor (a : ResolvedAccessor) (this : ObjectRef) (args : List Value) :
    Routine fun run => run.runAccessor a this args :=
  .bind .withTypes fun _ => .task _

theorem routine_overridden (p : PlatformId) (this : ObjectRef) (op : Method) (args : List Value) :
    Routine fun run => run.overridden p this op args :=
  .bind (.elementary (.resolve p this.cls op)) fun a => routine_runAccessor a this args

theorem routine_overriddenNamed (id : InstanceId) (name : String) (args : List Value) :
    Routine fun run => run.overriddenNamed id name args := by
  refine .bind .get fun w => ?_
  split
  · exact .raise
  · dsimp only
    split
    · exact routine_overridden _ _ _ _
    · exact .raise

theorem routine_callOverload (p : PlatformId) (bridge : ObjectRef) (source : Method) (args : List Value) :
    Routine fun run => run.callOverload p bridge source args := by
  refine .bind (.outcome (.elementary (.resolve p bridge.cls source))) fun found => ?_
  cases found with
  | ok a => exact routine_runAccessor a bridge args
  | error e => exact .bind .withTypes fun args => routine_invoke bridge source.slot args

theorem routine_route (p : PlatformId) (id : InstanceId) (op : Method) (args : List Value) :
    Routine fun run => run.route p id op args := by
  refine .bind .get fun w => ?_
  split
  · exact .raise
  split
  · exact .pure
  refine .holding _ ?_
  dsimp only
  split
  · exact .raise
  split
  · exact .raise
  split
  · refine .bind (.task _) fun result => ?_
    split
    · exact .pure
    · exact .withTypes
  · split
    · exact routine_overridden _ _ _ _
    · exact routine_callOverload _ _ _ _

theorem routine_dispatchRouted (p : PlatformId) (this : ObjectRef) (operation : Nat) (args : List Value) :
    Routine fun run => run.dispatchRouted p this operation args := by
  refine .bind (.quiet (quiet_operationAt this operation)) fun op => .bind .get fun w => ?_
  dsimp only
  split
  · exact .bind (routine_overridden p this op args) fun _ => .pure
  · refine .bind (.holding _ (.elementary (.boundTo this))) fun found => ?_
    cases found with
    | none => exact .bind (routine_overridden p this op args) fun _ => .pure
    | some id => exact .bind (.holding _ (routine_route p id op args)) fun _ => .pure

/-- What a body asks for, unless it asks for a script object to be made or a property to be set. -/
theorem routine_perform {r : Request} (hextend : ∀ script name, r ≠ .extend script name)
    (hset : ∀ id name v, r ≠ .setProperty id name v) : Routine fun run => run.perform r := by
  cases r
  case evaluate l => exact World.routine_evaluate l
  case newArray items => exact .elementary (.newArray _)
  case log text => exact .bind (.elementary (.report text)) fun _ => .pure
  case getField o name => exact .quiet (World.quiet_getField o name)
  case setField o name v => exact .bind (.elementary (.setField o name v)) fun _ => .pure
  case call o name args => exact routine_call o name args
  case invoke o slot args => exact routine_invoke o slot args
  case construct type params args =>
    refine .bind (.quiet (World.quiet_keptType type)) fun id => ?_
    exact .bind (routine_construct id params args) fun _ => .pure
  case getProperty i name => exact .quiet (World.quiet_getProperty i name)
  case setProperty i name v => exact absurd rfl (hset i name v)
  case overridden i name args => exact routine_overriddenNamed i name args
  case overriddenAt o operation args =>
    refine .bind .get fun w => .bind (.quiet (quiet_operationAt o operation)) fun op => ?_
    exact routine_overridden _ o op args
  case typeName v => exact .quiet (.bind .get fun _ => .pure)
  case isConstructing o => exact .quiet (.bind .get fun _ => .pure)
  case isActive => exact .quiet (.bind .get fun _ => .pure)
  case isBound o => exact .quiet (.bind .get fun _ => .pure)
  case bind o name =>
    refine .bind (.quiet (World.quiet_kept _ _ _)) fun id => ?_
    exact .bind (.elementary (.bindTo o id)) fun _ => .pure
  case extend script name => exact absurd rfl (hextend script name)

theorem quiet_checkCount (text : String) (params : List ValueType) (args : List Value) :
    Quiet (checkCount text params args) := by
  rw [checkCount]
  split
  · exact .pure
  · exact .raise

end Runner

/-! ## Generated code -/

namespace CompiledBody

variable (unit : CompiledBody)

theorem quiet_fault {α : Type} (fault : FrameFault) : Quiet (unit.fault fault : Action α) := .raise

theorem quiet_pop (f : Frame) : Quiet (unit.pop f) := by
  rw [pop]
  split
  · exact .pure
  · exact unit.quiet_fault _

theorem quiet_popMany (f : Frame) (n : Nat) : Quiet (unit.popMany f n) := by
  rw [popMany]
  split
  · exact unit.quiet_fault _
  · exact .pure

theorem quiet_popObject (f : Frame) : Quiet (unit.popObject f) := by
  refine .bind (unit.quiet_pop f) fun found => ?_
  dsimp only
  split
  · exact .pure
  · exact .raise
  · exact .bind .get fun w => unit.quiet_fault _

theorem quiet_popArray (f : Frame) : Quiet (unit.popArray f) := by
  refine .bind (unit.quiet_pop f) fun found => ?_
  dsimp only
  split
  · exact .pure
  · exact .raise
  · exact .bind .get fun w => unit.quiet_fault _

theorem quiet_popIndex (f : Frame) : Quiet (unit.popIndex f) := by
  refine .bind (unit.quiet_pop f) fun found => ?_
  dsimp only
  split
  · exact .pure
  · exact unit.quiet_fault _

theorem quiet_constant (c : UInt16) : Quiet (unit.constant c) := by
  rw [constant]
  split
  · exact .pure
  · exact unit.quiet_fault _

theorem quiet_fieldName (c : UInt16) : Quiet (unit.fieldName c) := by
  refine .bind (unit.quiet_constant c) fun k => ?_
  split
  · exact .pure
  · exact unit.quiet_fault _

/-- A call of what a constant names, with what is left of the frame held. -/
theorem routine_held (f : Frame) (task : Task) {g : Value → Flow} :
    Routine fun run => World.holding f.holders (run task) >>= fun v => pure (g v) :=
  .bind (.holding _ (.task task)) fun _ => .pure

/-- Every instruction is a routine. Only those that call start tasks. -/
theorem routine_step (f : Frame) (i : Instr) : Routine fun run => unit.step run f i := by
  -- each leaves the world as it is up to the one thing that it does, if it does any
  cases i
  case load n =>
    simp only [step]
    split
    · exact .pure
    · exact .quiet (unit.quiet_fault _)
  case store n =>
    refine .bind (.quiet (unit.quiet_pop f)) fun found => ?_
    dsimp only
    split
    · exact .pure
    · exact .quiet (unit.quiet_fault _)
  case const c =>
    refine .bind (.quiet (unit.quiet_constant c)) fun k => ?_
    split
    · exact .pure
    · exact .pure
    · exact .quiet (unit.quiet_fault _)
  case null => exact .pure
  case getStatic slot =>
    refine .bind .get fun w => ?_
    split
    · exact .quiet (unit.quiet_fault _)
    · cases slot
      case dispatcher =>
        dsimp only
        split
        · exact .pure
        · exact .pure
      case operations =>
        dsimp only
        split
        · exact .pure
        · exact .quiet (unit.quiet_fault _)
  case getField c =>
    refine .quiet (.bind (unit.quiet_fieldName c) fun name => .bind (unit.quiet_popObject f) fun receiver => ?_)
    exact .bind (World.quiet_getField receiver.1 name) fun _ => .pure
  case putField c =>
    refine .bind (.quiet (unit.quiet_fieldName c)) fun name => .bind (.quiet (unit.quiet_pop f)) fun value =>
      .bind (.quiet (unit.quiet_popObject value.2)) fun receiver => ?_
    exact .bind (.elementary (.setField receiver.1 name value.1)) fun _ => .pure
  case newArray =>
    refine .bind (.quiet (unit.quiet_popIndex f)) fun length => ?_
    dsimp only
    split
    · exact .raise
    · exact .bind (.elementary (.newArray _)) fun _ => .pure
  case arrayLoad =>
    refine .quiet (.bind (unit.quiet_popIndex f) fun index => .bind (unit.quiet_popArray index.2) fun array =>
      .bind (World.quiet_itemsOf array.1) fun items => ?_)
    split
    · split
      · exact .pure
      · exact .raise
    · exact .raise
  case arrayStore =>
    refine .bind (.quiet (unit.quiet_pop f)) fun value => .bind (.quiet (unit.quiet_popIndex value.2)) fun index =>
      .bind (.quiet (unit.quiet_popArray index.2)) fun array =>
      .bind (.quiet (World.quiet_itemsOf array.1)) fun items => ?_
    split
    · exact .bind (.elementary (.storeItem _ _ _)) fun _ => .pure
    · exact .raise
  case box kind =>
    refine .quiet (.bind (unit.quiet_pop f) fun found => .bind .get fun w => ?_)
    split
    · split
      · exact .pure
      · exact .raise
    · exact .raise
  case unbox kind => exact .quiet (.bind (unit.quiet_pop f) fun found => .bind .withTypes fun _ => .pure)
  case checkCast c =>
    refine .quiet (.bind (unit.quiet_constant c) fun k => ?_)
    split
    · exact .bind (unit.quiet_pop f) fun found => .bind .withTypes fun _ => .pure
    · exact unit.quiet_fault _
  case ifNull target | ifNonNull target => exact .quiet (.bind (unit.quiet_pop f) fun _ => .pure)
  case jump target => exact .pure
  case invokeSuper c =>
    refine .bind (.quiet (unit.quiet_constant c)) fun k => ?_
    split
    · refine .bind (.quiet (unit.quiet_popMany f _)) fun args =>
        .bind (.quiet (unit.quiet_popObject args.2)) fun receiver => ?_
      exact routine_held _ _
    · exact .quiet (unit.quiet_fault _)
  case invokeSuperCtor c =>
    refine .bind (.quiet (unit.quiet_constant c)) fun k => ?_
    split
    · refine .bind (.quiet (unit.quiet_popMany f _)) fun args =>
        .bind (.quiet (unit.quiet_popObject args.2)) fun receiver => ?_
      exact routine_held _ _
    · exact .quiet (unit.quiet_fault _)
  case invokeDispatch =>
    refine .bind (.quiet (unit.quiet_popArray f)) fun array =>
      .bind (.quiet (World.quiet_itemsOf array.1)) fun items =>
      .bind (.quiet (unit.quiet_pop array.2)) fun operation => ?_
    dsimp only
    split
    · refine .bind (.quiet (unit.quiet_popObject _)) fun receiver =>
        .bind (.quiet (unit.quiet_pop receiver.2)) fun d => ?_
      split
      · exact routine_held _ _
      · exact .quiet (.bind .get fun _ => unit.quiet_fault _)
    · exact .quiet (.bind .get fun _ => unit.quiet_fault _)
  case newThrowable c =>
    refine .bind (.quiet (unit.quiet_constant c)) fun k => ?_
    split
    · exact .bind (World.routine_newThrowable _) fun _ => .pure
    · exact .quiet (unit.quiet_fault _)
  case throw =>
    refine .quiet (.bind (unit.quiet_pop f) fun found => ?_)
    dsimp only
    split
    · exact .raise
    · exact .raise
    · exact .bind .get fun _ => unit.quiet_fault _
  case ret => exact .quiet (.bind (unit.quiet_pop f) fun _ => .pure)
  case retVoid => exact .pure
  case dup =>
    simp only [step]
    split
    · exact .pure
    · exact .quiet (unit.quiet_fault _)
  case pop => exact .quiet (.bind (unit.quiet_pop f) fun _ => .pure)

/-- Fetching and executing one instruction. -/
theorem routine_advance (pc : Nat) (f : Frame) : Routine fun run => unit.advance run pc f := by
  unfold advance
  split
  · exact .quiet (unit.quiet_fault _)
  · refine .bind (unit.routine_step f _) fun flow => ?_
    cases flow with
    | next f => exact .pure
    | jump target f => exact .pure
    | ret v => exact .pure

/-- A body after some instruction: what is left of it is shorter by one step. -/
theorem routine_loop (steps pc : Nat) (f : Frame) : Routine fun run => unit.loop run steps pc f := by
  induction steps generalizing pc f with
  | zero => exact .quiet .halt
  | succ steps ih =>
      refine .bind (unit.routine_advance pc f) fun state => ?_
      cases state with
      | «at» next f => exact ih next f
      | returned v => exact .pure

theorem routine_run (steps : Nat) (this : ObjectRef) (args : List Value) :
    Routine fun run => unit.run run steps this args := by
  refine .bind .get fun w => ?_
  split
  · exact .holding _ (unit.routine_loop steps 0 _)
  · exact .quiet (unit.quiet_fault _)

end CompiledBody

/-! ## What routines hold -/

namespace Action

variable {α : Type} {x : Action α}

theorem Quiet.letsGo (h : x.Quiet) : LetsGo x := fun w => congrArg World.held (h w)

theorem Elementary.letsGo (h : x.Elementary) : LetsGo x := by
  cases h with
  | quiet h => exact h.letsGo
  | newArray items => exact fun _ => rfl
  | storeItem id i v => exact fun _ => rfl
  | issue => exact fun _ => rfl
  | report text => exact fun _ => rfl
  | allocate cls =>
      refine .of_get fun w => ?_
      split
      · exact .raise
      · split
        · exact .raise
        · exact rfl
  | setField o name v =>
      refine .of_get fun w => ?_
      split
      · exact .raise
      · split
        · exact rfl
        · exact .raise
  | bindTo o id =>
      refine .of_get fun w => ?_
      split
      · exact .pure
      · exact rfl
  | boundTo o =>
      refine .of_get fun w => ?_
      split
      · exact .pure
      · split
        · exact rfl
        · exact .pure
  | resolve p real op =>
      refine .of_get fun w => ?_
      generalize AccessorCache.resolve w.types real op (w.platform p).accessors = resolved
      obtain ⟨_ | _, cache⟩ := resolved <;> exact rfl

/-- A routine lets go of all that it held if every task does that it starts. -/
theorem Routine.letsGo {x : Runner → Action α} {run : Runner} (h : Routine x) (hrun : ∀ task, LetsGo (run task)) :
    LetsGo (x run) := by
  induction h with
  | elementary h => exact h.letsGo
  | task task => exact hrun task
  | bind _ _ ihx ihf => exact ihx.bind ihf
  | outcome _ ih => exact ih.outcome
  | holding hs _ ih => exact World.held_holding hs _

end Action

end Interpose
