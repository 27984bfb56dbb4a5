import Interpose.Proofs.Builders
import Interpose.Proofs.Frames
import Interpose.Proofs.Traces
import Mathlib.Data.List.Forall2

/-!
# How bodies end

A body without branches back ends within the length of its code. How it ends is found from the end
of the code to its start: one equation for each instruction that a builder adds says what has to
hold before it for the body to end as it does after it.
-/

namespace Interpose.CompiledBody

variable {unit : CompiledBody} {owner : TypeId} {code : Code} {place : Nat → Nat} {run : Runner}
  {pc : Nat} {f f' : Frame} {w w' : World} {i : Instr} {r : Except Halt Value × World}

/-- Whether a body ends in a certain way from a position on, given as many instructions as there are
from there to the end of its code. -/
def Ends (unit : CompiledBody) (run : Runner) (code : Code) (place : Nat → Nat) (pc : Nat) (f : Frame)
    (w : World) (r : Except Halt Value × World) : Prop :=
  ∀ steps, code.instrs.size ≤ steps + pc → unit.loop run steps (place pc) f w = r

/-! ## One instruction -/

/-- What happens from a position on is what its instruction does, and what happens after it. -/
theorem loop_of_presents (hpresents : unit.image.Presents code.instrs place)
    (hi : code.instrs[pc]? = some i) (steps : Nat) :
    unit.loop run (steps + 1) (place pc) f = unit.step run f i >>= fun flow =>
      match flow with
      | .next f => unit.loop run steps (place (pc + 1)) f
      | .jump t f => unit.loop run steps (place t.toNat) f
      | .ret v => pure v := by
  rw [loop, advance_of_presents hpresents run hi f, bind_assoc]
  congr
  funext flow
  cases flow <;> rfl

/-- From the position of an instruction a body has an instruction left. -/
theorem Ends.of_steps (hi : code.instrs[pc]? = some i)
    (h : ∀ steps, code.instrs.size ≤ steps + 1 + pc → unit.loop run (steps + 1) (place pc) f w = r) :
    unit.Ends run code place pc f w r := by
  intro steps hsteps
  have hlt := (Array.getElem?_eq_some_iff.1 hi).1
  obtain ⟨rest, rfl⟩ : ∃ rest, steps = rest + 1 := ⟨steps - 1, by omega⟩
  exact h rest hsteps

/-- Arguments are taken in their order. -/
theorem popMany_of_stack {args rest : List Value} {n : Nat} (hargs : args.length = n)
    (hstack : f.stack = args.reverse ++ rest) :
    unit.popMany f n = pure (args, { f with stack := rest }) := by
  have htake : f.stack.take n = args.reverse := by
    rw [hstack, ← hargs, List.take_append_of_le_length (by simp), List.take_of_length_le (by simp)]
  have hdrop : f.stack.drop n = rest := by
    rw [hstack, ← hargs, List.drop_append_of_le_length (by simp), List.drop_of_length_le (by simp)]
    rfl
  have hlength : ¬ args.reverse.length < n := by simp [hargs]
  simp only [popMany, htake, hdrop, if_neg hlength, List.reverse_reverse]

variable (hrealizes : unit.Realizes owner code place)

include hrealizes

theorem Ends.next (hi : code.instrs[pc]? = some i)
    (hstep : unit.step run f i w = (.ok (.next f'), w'))
    (h : unit.Ends run code place (pc + 1) f' w' r) : unit.Ends run code place pc f w r :=
  .of_steps hi fun steps hsteps => by
    rw [loop_of_presents hrealizes.presents hi, Action.bind_apply_ok hstep]
    exact h steps (by omega)

/-- A branch forward leaves enough instructions for what is left of the code. -/
theorem Ends.jump {t : UInt32} (hi : code.instrs[pc]? = some i)
    (hstep : unit.step run f i w = (.ok (.jump t f'), w')) (ht : pc < t.toNat)
    (h : unit.Ends run code place t.toNat f' w' r) : unit.Ends run code place pc f w r :=
  .of_steps hi fun steps hsteps => by
    rw [loop_of_presents hrealizes.presents hi, Action.bind_apply_ok hstep]
    exact h steps (by omega)

theorem Ends.ret {v : Value} (hi : code.instrs[pc]? = some i)
    (hstep : unit.step run f i w = (.ok (.ret v), w')) :
    unit.Ends run code place pc f w (.ok v, w') :=
  .of_steps hi fun steps _ => by
    rw [loop_of_presents hrealizes.presents hi, Action.bind_apply_ok hstep]
    rfl

theorem Ends.error {e : Halt} (hi : code.instrs[pc]? = some i)
    (hstep : unit.step run f i w = (.error e, w')) :
    unit.Ends run code place pc f w (.error e, w') :=
  .of_steps hi fun steps _ => by
    rw [loop_of_presents hrealizes.presents hi, Action.bind_apply_error hstep]

/-- A branch on null takes the value off the stack either way. -/
theorem Ends.ifNull {t : UInt32} {v : Value} {rest : List Value}
    (hi : code.instrs[pc]? = some (.ifNull t)) (hstack : f.stack = v :: rest) (ht : pc < t.toNat)
    (hnull : v = .null → unit.Ends run code place t.toNat { f with stack := rest } w r)
    (hother : v ≠ .null → unit.Ends run code place (pc + 1) { f with stack := rest } w r) :
    unit.Ends run code place pc f w r := by
  have hstep : unit.step run f (.ifNull t) w = (.ok (if v = .null then .jump t { f with stack := rest }
      else .next { f with stack := rest }), w) := by
    simp only [step, pop, hstack]
    rfl
  by_cases hv : v = .null
  · rw [if_pos hv] at hstep
    exact .jump hrealizes hi hstep ht (hnull hv)
  · rw [if_neg hv] at hstep
    exact .next hrealizes hi hstep (hother hv)

/-! ## The instructions of builders -/

variable {b : CodeBuilder} {v : Value} {rest : List Value}

theorem Ends.load {n : UInt16} (h : (b.load n).Within code) (hv : f.locals[n.toNat]? = some v)
    (hends : unit.Ends run code place (b.load n).instrs.size (f.push v) w r) :
    unit.Ends run code place b.instrs.size f w r := by
  refine .next hrealizes (h.emitted rfl) ?_ (by simpa [CodeBuilder.load] using hends)
  simp only [step, hv]
  rfl

theorem Ends.pushInt {k : Int32} (h : (b.pushInt k).Within code)
    (hends : unit.Ends run code place (b.pushInt k).instrs.size (f.push (.ofInt32 k)) w r) :
    unit.Ends run code place b.instrs.size f w r := by
  obtain ⟨n, hi, hc⟩ := h.emittedWith fun _ => rfl
  refine .next hrealizes hi ?_ (by simpa [CodeBuilder.pushInt] using hends)
  simp only [step, constant, hrealizes.constants, hc]
  rfl

theorem Ends.dup (h : (b.emit .dup).Within code) (hstack : f.stack = v :: rest)
    (hends : unit.Ends run code place (b.emit .dup).instrs.size (f.push v) w r) :
    unit.Ends run code place b.instrs.size f w r := by
  refine .next hrealizes (h.emitted rfl) ?_ (by simpa using hends)
  simp only [step, hstack]
  rfl

theorem Ends.pop (h : (b.emit .pop).Within code) (hstack : f.stack = v :: rest)
    (hends : unit.Ends run code place (b.emit .pop).instrs.size { f with stack := rest } w r) :
    unit.Ends run code place b.instrs.size f w r := by
  refine .next hrealizes (h.emitted rfl) ?_ (by simpa using hends)
  simp only [step, CompiledBody.pop, hstack]
  rfl

theorem Ends.getDispatcher {t : HostType} (h : (b.emit (.getStatic .dispatcher)).Within code)
    (ht : (w.types.lineage owner).find? (fun t => t.generated.any (·.role == .proxy)) = some t)
    (hends : unit.Ends run code place (b.emit (.getStatic .dispatcher)).instrs.size
      (f.push (((w.dispatcherOf? t.id).map .dispatcher).getD .null)) w r) :
    unit.Ends run code place b.instrs.size f w r := by
  refine .next hrealizes (h.emitted rfl) ?_ (by simpa using hends)
  simp only [step, hrealizes.owner]
  rw [Action.bind_apply_ok (Action.get_apply w), ht]
  rcases hd : w.dispatcherOf? t.id with _ | d
  · simp only [hd]
    rfl
  · simp only [hd]
    rfl

theorem Ends.getOperations {t : HostType} {g : Generation}
    (h : (b.emit (.getStatic .operations)).Within code)
    (ht : (w.types.lineage owner).find? (fun t => t.generated.any (·.role == .proxy)) = some t)
    (hg : t.generated = some g)
    (hends : unit.Ends run code place (b.emit (.getStatic .operations)).instrs.size
      (f.push (.array g.table)) w r) :
    unit.Ends run code place b.instrs.size f w r := by
  refine .next hrealizes (h.emitted rfl) ?_ (by simpa using hends)
  simp only [step, hrealizes.owner]
  rw [Action.bind_apply_ok (Action.get_apply w), ht]
  simp only [hg]
  rfl

theorem Ends.newArray {n : Int32} (h : (b.emit .newArray).Within code)
    (hstack : f.stack = .ofInt32 n :: rest) (hn : 0 ≤ n.toInt)
    (hends : unit.Ends run code place (b.emit .newArray).instrs.size
      { f with stack := .array ⟨w.arrays.size⟩ :: rest }
      { w with arrays := w.arrays.push (Array.replicate n.toInt.toNat .null) } r) :
    unit.Ends run code place b.instrs.size f w r := by
  refine .next hrealizes (h.emitted rfl) ?_ (by simpa using hends)
  have hnot : ¬ n.toInt < 0 := by omega
  simp only [step, popIndex, CompiledBody.pop, hstack, pure_bind]
  simp only [Value.int32?, Value.ofInt32, Value.primitive?, pure_bind, if_neg hnot]
  rfl

theorem Ends.arrayLoad {k : Int32} {id : ArrayId} {items : Array Value}
    (h : (b.emit .arrayLoad).Within code) (hstack : f.stack = .ofInt32 k :: .array id :: rest)
    (hitems : w.arrays[id.index]? = some items) (hk : 0 ≤ k.toInt)
    (hv : items[k.toInt.toNat]? = some v)
    (hends : unit.Ends run code place (b.emit .arrayLoad).instrs.size
      { f with stack := v :: rest } w r) :
    unit.Ends run code place b.instrs.size f w r := by
  refine .next hrealizes (h.emitted rfl) ?_ (by simpa using hends)
  simp only [step, popIndex, popArray, CompiledBody.pop, hstack, pure_bind]
  simp only [Value.int32?, Value.ofInt32, Value.primitive?, pure_bind, if_pos hk]
  rw [Action.bind_apply_ok (show World.itemsOf id w = (.ok items, w) by
    rw [World.itemsOf_apply, hitems]; rfl)]
  simp only [hv]
  rfl

theorem Ends.arrayLoad_negative {k : Int32} {id : ArrayId} {items : Array Value}
    (h : (b.emit .arrayLoad).Within code) (hstack : f.stack = .ofInt32 k :: .array id :: rest)
    (hitems : w.arrays[id.index]? = some items) (hk : ¬ 0 ≤ k.toInt) :
    unit.Ends run code place b.instrs.size f w
      (.error (.raised (.indexOutOfBounds k.toInt items.size)), w) := by
  refine .error hrealizes (h.emitted rfl) ?_
  simp only [step, popIndex, popArray, CompiledBody.pop, hstack, pure_bind]
  simp only [Value.int32?, Value.ofInt32, Value.primitive?, pure_bind, if_neg hk]
  rw [Action.bind_apply_ok (show World.itemsOf id w = (.ok items, w) by
    rw [World.itemsOf_apply, hitems]; rfl)]
  rfl

theorem Ends.box {p : Primitive} (h : (b.emit (.box p.kind)).Within code)
    (hstack : f.stack = .prim p :: rest)
    (hends : unit.Ends run code place (b.emit (.box p.kind)).instrs.size
      { f with stack := .boxed p :: rest } w r) :
    unit.Ends run code place b.instrs.size f w r := by
  refine .next hrealizes (h.emitted rfl) ?_ (by simpa using hends)
  simp only [step, CompiledBody.pop, hstack, pure_bind]
  rw [Action.bind_apply_ok (Action.get_apply w)]
  simp only [if_true]
  rfl

/-- What is not a primitive of the kind, or is in a box, is not put into one. -/
theorem Ends.box_mismatch {kind : Kind} (h : (b.emit (.box kind)).Within code) (hstack : f.stack = v :: rest)
    (hother : ∀ p : Primitive, v = .prim p → p.kind ≠ kind) :
    unit.Ends run code place b.instrs.size f w (.error (.raised (w.types.mismatch kind.keyword v)), w) := by
  refine .error hrealizes (h.emitted rfl) ?_
  simp only [step, CompiledBody.pop, hstack, pure_bind]
  rw [Action.bind_apply_ok (Action.get_apply w)]
  cases v with
  | prim p =>
      dsimp only
      rw [if_neg (hother p rfl)]
      rfl
  | _ => rfl

theorem Ends.arrayStore {k : Int32} {id : ArrayId} {items : Array Value}
    (h : (b.emit .arrayStore).Within code)
    (hstack : f.stack = v :: .ofInt32 k :: .array id :: rest)
    (hitems : w.arrays[id.index]? = some items) (hk : 0 ≤ k.toInt)
    (hlt : k.toInt.toNat < items.size)
    (hends : unit.Ends run code place (b.emit .arrayStore).instrs.size { f with stack := rest }
      { w with arrays := w.arrays.modify id.index (·.setIfInBounds k.toInt.toNat v) } r) :
    unit.Ends run code place b.instrs.size f w r := by
  refine .next hrealizes (h.emitted rfl) ?_ (by simpa using hends)
  simp only [step, popIndex, popArray, CompiledBody.pop, hstack, pure_bind]
  simp only [Value.int32?, Value.ofInt32, Value.primitive?, pure_bind]
  rw [Action.bind_apply_ok (show World.itemsOf id w = (.ok items, w) by
    rw [World.itemsOf_apply, hitems]; rfl)]
  rw [if_pos ⟨hk, hlt⟩]
  rfl

/-- A call of a dispatcher ends the body if it fails, and otherwise leaves its result. -/
theorem Ends.invokeDispatch {id : ArrayId} {n : Nat} {this : ObjectRef} {d : DispatcherId}
    {items : Array Value} (h : (b.emit .invokeDispatch).Within code)
    (hstack : f.stack = .array id :: .operation n :: .object this :: .dispatcher d :: rest)
    (hitems : w.arrays[id.index]? = some items)
    (herror : ∀ e w', World.holding { f with stack := rest }.holders
      (run (.dispatch d this n items.toList)) w = (.error e, w') → r = (.error e, w'))
    (hends : ∀ v w', World.holding { f with stack := rest }.holders
      (run (.dispatch d this n items.toList)) w = (.ok v, w') →
        unit.Ends run code place (b.emit .invokeDispatch).instrs.size
          { f with stack := v :: rest } w' r) :
    unit.Ends run code place b.instrs.size f w r := by
  have hstep : unit.step run f .invokeDispatch w = (World.holding { f with stack := rest }.holders
      (run (.dispatch d this n items.toList)) >>= fun v =>
        pure (.next { f with stack := v :: rest })) w := by
    simp only [step, popArray, popObject, CompiledBody.pop, hstack, pure_bind]
    rw [Action.bind_apply_ok (show World.itemsOf id w = (.ok items, w) by
      rw [World.itemsOf_apply, hitems]; rfl)]
    rfl
  rcases hrun : World.holding { f with stack := rest }.holders
      (run (.dispatch d this n items.toList)) w with ⟨e | v, w'⟩
  · rw [herror e w' hrun]
    exact .error hrealizes (h.emitted rfl) (hstep.trans (Action.bind_apply_error hrun))
  · exact .next hrealizes (h.emitted rfl) (hstep.trans (Action.bind_apply_ok hrun))
      (by simpa using hends v w' hrun)

/-- A call of an operation ends the body if it fails, and otherwise leaves its result, if it has
one. -/
theorem Ends.invokeSuper {m : Method} {this : ObjectRef} {args : List Value}
    (h : (b.invokeSuper m).Within code) (hargs : args.length = m.params.length)
    (hstack : f.stack = args.reverse ++ .object this :: rest)
    (herror : ∀ e w', World.holding { f with stack := rest }.holders (run (.method m this args)) w =
      (.error e, w') → r = (.error e, w'))
    (hends : ∀ v w', World.holding { f with stack := rest }.holders (run (.method m this args)) w =
      (.ok v, w') → unit.Ends run code place (b.invokeSuper m).instrs.size
        { f with stack := if m.returns.isVoid then rest else v :: rest } w' r) :
    unit.Ends run code place b.instrs.size f w r := by
  obtain ⟨n, hi, hc⟩ := h.emittedWith fun _ => rfl
  have hstep : unit.step run f (.invokeSuper n) w = (World.holding { f with stack := rest }.holders
      (run (.method m this args)) >>= fun v => pure (.next
        { f with stack := if m.returns.isVoid then rest else v :: rest })) w := by
    simp only [step, constant, hrealizes.constants, hc, pure_bind, popMany_of_stack hargs hstack, popObject,
      CompiledBody.pop]
    cases m.returns.isVoid <;> rfl
  rcases hrun : World.holding { f with stack := rest }.holders (run (.method m this args)) w
    with ⟨e | v, w'⟩
  · rw [herror e w' hrun]
    exact .error hrealizes hi (hstep.trans (Action.bind_apply_error hrun))
  · exact .next hrealizes hi (hstep.trans (Action.bind_apply_ok hrun))
      (by simpa [CodeBuilder.invokeSuper] using hends v w' hrun)

/-- A call of a constructor ends the body if it fails, and leaves nothing. -/
theorem Ends.invokeSuperCtor {c : Constructor} {this : ObjectRef} {args : List Value}
    (h : (b.invokeSuperCtor c).Within code) (hargs : args.length = c.params.length)
    (hstack : f.stack = args.reverse ++ .object this :: rest)
    (herror : ∀ e w', World.holding { f with stack := rest }.holders (run (.constructor c this args)) w =
      (.error e, w') → r = (.error e, w'))
    (hends : ∀ v w', World.holding { f with stack := rest }.holders (run (.constructor c this args)) w =
      (.ok v, w') → unit.Ends run code place (b.invokeSuperCtor c).instrs.size { f with stack := rest } w' r) :
    unit.Ends run code place b.instrs.size f w r := by
  obtain ⟨n, hi, hc⟩ := h.emittedWith fun _ => rfl
  have hstep : unit.step run f (.invokeSuperCtor n) w = (World.holding { f with stack := rest }.holders
      (run (.constructor c this args)) >>= fun _ => pure (.next { f with stack := rest })) w := by
    simp only [step, constant, hrealizes.constants, hc, pure_bind, popMany_of_stack hargs hstack, popObject,
      CompiledBody.pop]
  rcases hrun : World.holding { f with stack := rest }.holders (run (.constructor c this args)) w
    with ⟨e | v, w'⟩
  · rw [herror e w' hrun]
    exact .error hrealizes hi (hstep.trans (Action.bind_apply_error hrun))
  · exact .next hrealizes hi (hstep.trans (Action.bind_apply_ok hrun))
      (by simpa [CodeBuilder.invokeSuperCtor] using hends v w' hrun)

/-- Reading a field ends the body if it fails, and otherwise leaves the value. -/
theorem Ends.getField {name : String} {this : ObjectRef} (h : (b.getField name).Within code)
    (hstack : f.stack = .object this :: rest)
    (herror : ∀ e w', World.getField this name w = (.error e, w') → r = (.error e, w'))
    (hends : ∀ v w', World.getField this name w = (.ok v, w') →
      unit.Ends run code place (b.getField name).instrs.size { f with stack := v :: rest } w' r) :
    unit.Ends run code place b.instrs.size f w r := by
  obtain ⟨n, hi, hc⟩ := h.emittedWith fun _ => rfl
  have hstep : unit.step run f (.getField n) w = (World.getField this name >>= fun v =>
      pure (.next { f with stack := v :: rest })) w := by
    simp only [step, fieldName, constant, hrealizes.constants, hc, popObject, CompiledBody.pop, hstack, pure_bind]
    rfl
  rcases hread : World.getField this name w with ⟨e | v, w'⟩
  · rw [herror e w' hread]
    exact .error hrealizes hi (hstep.trans (Action.bind_apply_error hread))
  · exact .next hrealizes hi (hstep.trans (Action.bind_apply_ok hread))
      (by simpa [CodeBuilder.getField] using hends v w' hread)

/-- Storing in a field ends the body if it fails, and leaves nothing. -/
theorem Ends.putField {name : String} {this : ObjectRef} (h : (b.putField name).Within code)
    (hstack : f.stack = v :: .object this :: rest)
    (herror : ∀ e w', World.setField this name v w = (.error e, w') → r = (.error e, w'))
    (hends : ∀ w', World.setField this name v w = (.ok (), w') →
      unit.Ends run code place (b.putField name).instrs.size { f with stack := rest } w' r) :
    unit.Ends run code place b.instrs.size f w r := by
  obtain ⟨n, hi, hc⟩ := h.emittedWith fun _ => rfl
  have hstep : unit.step run f (.putField n) w = (World.setField this name v >>= fun _ =>
      pure (.next { f with stack := rest })) w := by
    simp only [step, fieldName, constant, hrealizes.constants, hc, popObject, CompiledBody.pop, hstack, pure_bind]
  rcases hwrite : World.setField this name v w with ⟨e | _, w'⟩
  · rw [herror e w' hwrite]
    exact .error hrealizes hi (hstep.trans (Action.bind_apply_error hwrite))
  · exact .next hrealizes hi (hstep.trans (Action.bind_apply_ok hwrite))
      (by simpa [CodeBuilder.putField] using hends w' hwrite)

theorem Ends.newThrowable {e : HostException} (h : (b.newThrowable e).Within code)
    (hends : unit.Ends run code place (b.newThrowable e).instrs.size
      (f.push (.throwable w.issued e)) { w with issued := w.issued + 1 } r) :
    unit.Ends run code place b.instrs.size f w r := by
  obtain ⟨n, hi, hc⟩ := h.emittedWith fun _ => rfl
  refine .next hrealizes hi ?_ (by simpa [CodeBuilder.newThrowable] using hends)
  simp only [step, constant, hrealizes.constants, hc]
  rfl

theorem Ends.throw {n : Nat} {e : HostException} (h : (b.emit .throw).Within code)
    (hstack : f.stack = .throwable n e :: rest) :
    unit.Ends run code place b.instrs.size f w (.error (.raised (.ofException e)), w) := by
  refine .error hrealizes (h.emitted rfl) ?_
  simp only [step, CompiledBody.pop, hstack]
  rfl

theorem Ends.retVoid (h : (b.emit .retVoid).Within code) :
    unit.Ends run code place b.instrs.size f w (.ok .void, w) :=
  .ret hrealizes (h.emitted rfl) rfl

theorem Ends.retTop (h : (b.emit .ret).Within code) (hstack : f.stack = v :: rest) :
    unit.Ends run code place b.instrs.size f w (.ok v, w) := by
  refine .ret hrealizes (h.emitted rfl) ?_
  simp only [step, CompiledBody.pop, hstack]
  rfl

theorem Ends.unbox {kind : Kind} (h : (b.emit (.unbox kind)).Within code)
    (hstack : f.stack = v :: rest)
    (herror : ∀ e, w.types.unboxAs kind v = .error e → r = (.error (.raised e), w))
    (hends : ∀ u, w.types.unboxAs kind v = .ok u →
      unit.Ends run code place (b.emit (.unbox kind)).instrs.size
        { f with stack := u :: rest } w r) :
    unit.Ends run code place b.instrs.size f w r := by
  have hstep : unit.step run f (.unbox kind) w =
      (Action.withTypes (fun types => types.unboxAs kind v) >>= fun u =>
        pure (.next { f with stack := u :: rest })) w := by
    simp only [step, CompiledBody.pop, hstack, pure_bind]
    rfl
  rcases hu : w.types.unboxAs kind v with e | u
  · rw [herror e hu]
    refine .error hrealizes (h.emitted rfl) (hstep.trans (Action.bind_apply_error ?_))
    rw [Action.withTypes, hu]
    rfl
  · refine .next hrealizes (h.emitted rfl) (hstep.trans (Action.bind_apply_ok ?_))
      (by simpa using hends u hu)
    rw [Action.withTypes, hu]
    rfl

theorem Ends.checkCast {t : ValueType} (h : (b.checkCast t).Within code)
    (hstack : f.stack = v :: rest)
    (herror : ∀ e, w.types.checkCast t v = .error e → r = (.error (.raised e), w))
    (hends : ∀ u, w.types.checkCast t v = .ok u →
      unit.Ends run code place (b.checkCast t).instrs.size { f with stack := u :: rest } w r) :
    unit.Ends run code place b.instrs.size f w r := by
  obtain ⟨n, hi, hc⟩ := h.emittedWith fun _ => rfl
  have hstep : unit.step run f (.checkCast n) w =
      (Action.withTypes (fun types => types.checkCast t v) >>= fun u =>
        pure (.next { f with stack := u :: rest })) w := by
    simp only [step, constant, hrealizes.constants, hc, CompiledBody.pop, hstack, pure_bind]
    rfl
  rcases hu : w.types.checkCast t v with e | u
  · rw [herror e hu]
    refine .error hrealizes hi (hstep.trans (Action.bind_apply_error ?_))
    rw [Action.withTypes, hu]
    rfl
  · refine .next hrealizes hi (hstep.trans (Action.bind_apply_ok ?_))
      (by simpa [CodeBuilder.checkCast] using hends u hu)
    rw [Action.withTypes, hu]
    rfl

/-- A value that is returned as one of a type is unboxed or cast to it. -/
theorem Ends.retAs {t : ValueType} (h : (b.retAs t).Within code) (hstack : f.stack = v :: rest) :
    unit.Ends run code place b.instrs.size f w
      (Action.withTypes (fun types => types.unboxOrCast t v) w) := by
  cases t with
  | void => exact .retVoid hrealizes h
  | primitive kind =>
      have hconvert : w.types.unboxOrCast (.primitive kind) v = w.types.unboxAs kind v := rfl
      simp only [Action.withTypes, hconvert]
      refine .unbox hrealizes h.of_emit hstack (fun e he => ?_) fun u hu => ?_
      · rw [he]
        rfl
      · rw [hu]
        exact .retTop hrealizes h rfl
  | reference _ | array _ =>
      simp only [Action.withTypes, TypeTable.unboxOrCast]
      refine .checkCast hrealizes h.of_emit hstack (fun e he => ?_) fun u hu => ?_
      · rw [he]
        rfl
      · rw [hu]
        exact .retTop hrealizes h rfl

/-- Pushing locals puts the last of them on top. -/
theorem Ends.loads {locals : Array Value} {stack : List Value} {l : List Nat} {vs : List Value}
    (hvs : List.Forall₂ (fun i v => locals[(UInt16.ofNat i).toNat]? = some v) l vs)
    (h : (l.foldl (fun b i => b.load (UInt16.ofNat i)) b).Within code)
    (hends : unit.Ends run code place
      (l.foldl (fun b i => b.load (UInt16.ofNat i)) b).instrs.size
      ⟨locals, vs.reverse ++ stack⟩ w r) :
    unit.Ends run code place b.instrs.size ⟨locals, stack⟩ w r := by
  induction hvs generalizing b stack with
  | nil => exact hends
  | @cons i v l vs hv _ ih =>
      rw [List.foldl_cons] at h
      refine .load hrealizes (h.of_continues ((CodeBuilder.Continues.refl _).loads l)) hv (ih h ?_)
      rw [List.reverse_cons, List.append_assoc] at hends
      exact hends

end Interpose.CompiledBody
