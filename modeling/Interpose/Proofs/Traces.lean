import Interpose.Proofs.Actions
import Interpose.Run.Frame

/-!
# What a body does

The states of a body after each number of instructions, and its trace: the instructions that it
executes, with the frame and the world before each and the call that it makes.
-/

namespace Interpose

/-- An instruction that a body is about to execute: the frame and the world before it, and the call
that it makes. -/
structure Moment where
  instr : Instr
  frame : Frame
  world : World
  call : Option Task

theorem World.itemsOf_apply (id : ArrayId) (w : World) :
    World.itemsOf id w = (.ok ((w.arrays[id.index]?).getD #[]), w) := rfl

namespace CompiledBody

variable (unit : CompiledBody) (run : Runner)

/-! ## Calls -/

/-- The call that an instruction makes in a frame, if it makes one. -/
def call? (f : Frame) (w : World) : Instr → Option Task
  | .invokeSuper c =>
    match unit.constants[c.toNat]? with
    | some (.method m) =>
      match f.stack.drop m.params.length with
      | .object o :: _ => some (.method m o (f.stack.take m.params.length).reverse)
      | _ => none
    | _ => none
  | .invokeSuperCtor c =>
    match unit.constants[c.toNat]? with
    | some (.ctor k) =>
      match f.stack.drop k.params.length with
      | .object o :: _ => some (.constructor k o (f.stack.take k.params.length).reverse)
      | _ => none
    | _ => none
  | .invokeDispatch =>
    match f.stack with
    | .array id :: .operation n :: .object o :: .dispatcher d :: _ =>
      some (.dispatch d o n ((w.arrays[id.index]?).getD #[]).toList)
    | _ => none
  | _ => none

section Congruence

variable {α : Type} {f : Frame} {w : World}

/-- Taking a value goes on with nothing but the top of the stack. -/
theorem pop_bind_congr {g h : Value × Frame → Action α}
    (hgh : ∀ v rest, f.stack = v :: rest → g (v, { f with stack := rest }) w =
      h (v, { f with stack := rest }) w) :
    (unit.pop f >>= g) w = (unit.pop f >>= h) w := by
  rcases f with ⟨locals, _ | ⟨v, rest⟩⟩
  · rfl
  · exact hgh v rest rfl

/-- Taking a receiver goes on with nothing but the object on top. -/
theorem popObject_bind_congr {g h : ObjectRef × Frame → Action α}
    (hgh : ∀ o rest, f.stack = .object o :: rest → g (o, { f with stack := rest }) w =
      h (o, { f with stack := rest }) w) :
    (unit.popObject f >>= g) w = (unit.popObject f >>= h) w := by
  unfold popObject
  rw [bind_assoc, bind_assoc]
  refine pop_bind_congr unit fun v rest hstack => ?_
  cases v
  case object o => exact hgh o rest hstack
  all_goals rfl

/-- Taking an array goes on with nothing but the array on top. -/
theorem popArray_bind_congr {g h : ArrayId × Frame → Action α}
    (hgh : ∀ id rest, f.stack = .array id :: rest → g (id, { f with stack := rest }) w =
      h (id, { f with stack := rest }) w) :
    (unit.popArray f >>= g) w = (unit.popArray f >>= h) w := by
  unfold popArray
  rw [bind_assoc, bind_assoc]
  refine pop_bind_congr unit fun v rest hstack => ?_
  cases v
  case array id => exact hgh id rest hstack
  all_goals rfl

/-- Taking arguments goes on with nothing but what is on top. -/
theorem popMany_bind_congr {n : Nat} {g h : List Value × Frame → Action α}
    (hgh : g ((f.stack.take n).reverse, { f with stack := f.stack.drop n }) w =
      h ((f.stack.take n).reverse, { f with stack := f.stack.drop n }) w) :
    (unit.popMany f n >>= g) w = (unit.popMany f n >>= h) w := by
  by_cases hlt : (f.stack.take n).length < n
  · simp only [popMany, hlt, if_true]
    rfl
  · simp only [popMany, hlt, if_false]
    exact hgh

end Congruence

/-- An instruction depends on no calls but the one that it makes. -/
theorem step_congr_call {run run' : Runner} {f : Frame} {w : World} {i : Instr}
    (h : ∀ task, unit.call? f w i = some task → run task = run' task) :
    unit.step run f i w = unit.step run' f i w := by
  cases i
  case invokeSuper c =>
    delta call? at h
    simp only [step, constant]
    rcases hc : unit.constants[c.toNat]? with _ | k
    · rfl
    · simp only [pure_bind]
      cases k with
      | method m =>
        refine popMany_bind_congr unit (popObject_bind_congr unit fun o rest hstack => ?_)
        have hdrop : f.stack.drop m.params.length = .object o :: rest := hstack
        simp only [hc, hdrop] at h
        rw [h _ rfl]
      | _ => rfl
  case invokeSuperCtor c =>
    delta call? at h
    simp only [step, constant]
    rcases hc : unit.constants[c.toNat]? with _ | k
    · rfl
    · simp only [pure_bind]
      cases k with
      | ctor k =>
        refine popMany_bind_congr unit (popObject_bind_congr unit fun o rest hstack => ?_)
        have hdrop : f.stack.drop k.params.length = .object o :: rest := hstack
        simp only [hc, hdrop] at h
        rw [h _ rfl]
      | _ => rfl
  case invokeDispatch =>
    simp only [step]
    refine popArray_bind_congr unit fun id rest harray => ?_
    rw [Action.bind_apply_ok (World.itemsOf_apply id w), Action.bind_apply_ok (World.itemsOf_apply id w)]
    refine pop_bind_congr unit fun operation rest' hoperation => ?_
    obtain rfl : rest = operation :: rest' := hoperation
    cases operation
    case operation n =>
      refine popObject_bind_congr unit fun o below hobject => ?_
      obtain rfl : rest' = .object o :: below := hobject
      refine pop_bind_congr unit fun d below' hdispatcher => ?_
      obtain rfl : below = d :: below' := hdispatcher
      cases d
      case dispatcher d =>
        delta call? at h
        simp only [harray] at h
        dsimp only
        rw [h _ rfl]
      all_goals rfl
    all_goals rfl
  -- the others do not mention how tasks are run
  all_goals simp only [step]

/-! ## Runs -/

/-- The state of a body after a number of instructions, or after fewer when it returns before. -/
def after : Nat → State → Action State
  | 0, s => pure s
  | _ + 1, .returned v => pure (.returned v)
  | n + 1, .at pc f => unit.advance run pc f >>= after n

/-- The instructions that a body executes from a state on, at most a number of them. -/
def trace : Nat → State → World → List Moment
  | 0, _, _ => []
  | _ + 1, .returned _, _ => []
  | n + 1, .at pc f, w =>
    match unit.image.fetch? pc with
    | none => []
    | some (i, _) =>
      ⟨i, f, w, unit.call? f w i⟩ ::
        match unit.advance run pc f w with
        | (.ok s, w') => trace n s w'
        | (.error _, _) => []

/-- What running ends with in a state: the value that was returned, and nothing before that. -/
def State.result : State → Action Value
  | .at _ _ => throw .exhausted
  | .returned v => pure v

theorem after_returned (n : Nat) (v : Value) :
    unit.after run n (.returned v) = pure (.returned v) := by
  cases n <;> rfl

/-- The loop ends with what its states end with. -/
theorem loop_eq_after (n pc : Nat) (f : Frame) :
    unit.loop run n pc f = unit.after run n (.at pc f) >>= State.result := by
  induction n generalizing pc f with
  | zero => rfl
  | succ n ih =>
      rw [loop, after, bind_assoc]
      congr
      funext s
      cases s with
      | «at» pc f => exact ih pc f
      | returned v =>
          rw [after_returned]
          rfl

end CompiledBody

end Interpose
