import Interpose.Proofs.Definitions
import Interpose.Proofs.Endings

/-!
# Thunks

The body that a proxy has for an operation either goes up, if there is no dispatcher, or packs its
boxed arguments into a new array and hands them to the dispatcher with the number of the operation.
What the body does is said by two computations, and the code is shown to end as they do.
-/

namespace Interpose

/-- A slot that accepts a value as it stands accepts it boxed when it is packed: a primitive goes
into its box, and anything else stays what it is. -/
theorem TypeTable.box_of_accepts {types : TypeTable} {t : ValueType} {v : Value}
    (h : types.accepts t v = true) :
    match t.kind? with
    | some k => ∃ p : Primitive, v = .prim p ∧ p.kind = k
    | none => v.box = v := by
  cases t <;> cases v <;>
    simp_all [TypeTable.accepts, TypeTable.isOfType, ValueType.kind?, Value.box]

namespace TypeTable

/-- An argument as a thunk passes it on: what is passed for a primitive has to be one of the kind that is in no box, and
is put into its box, and anything else stays what it is. -/
def packOne (types : TypeTable) (t : ValueType) (v : Value) : Except HostError Value :=
  match t.kind? with
  | none => .ok v
  | some kind =>
    match v with
    | .prim p => if p.kind = kind then .ok (.boxed p) else .error (types.mismatch kind.keyword v)
    | v => .error (types.mismatch kind.keyword v)

/-- The arguments as a thunk passes them on. -/
def packEach (types : TypeTable) : List ValueType → List Value → Except HostError (List Value)
  | t :: params, v :: args => do
    let first ← types.packOne t v
    let rest ← types.packEach params args
    return first :: rest
  | _, _ => .ok []

/-- What a slot accepts as it stands is passed on in its box. -/
theorem packOne_of_accepts {types : TypeTable} {t : ValueType} {v : Value} (h : types.accepts t v = true) :
    types.packOne t v = .ok v.box := by
  have hbox := box_of_accepts h
  unfold packOne
  cases hkind : t.kind? with
  | none =>
      rw [hkind] at hbox
      exact congrArg Except.ok hbox.symm
  | some kind =>
      rw [hkind] at hbox
      obtain ⟨p, rfl, hp⟩ := hbox
      exact if_pos hp

theorem packOne_of_none {types : TypeTable} {t : ValueType} {v : Value} (hkind : t.kind? = none) :
    types.packOne t v = .ok v := by
  rw [packOne, hkind]

/-- What is passed on for a primitive is one of the kind that was in no box. -/
theorem prim_of_packOne {types : TypeTable} {t : ValueType} {v u : Value} {kind : Kind} (hkind : t.kind? = some kind)
    (h : types.packOne t v = .ok u) : ∃ p : Primitive, v = .prim p ∧ p.kind = kind ∧ u = .boxed p := by
  rw [packOne, hkind] at h
  cases v with
  | prim p =>
      dsimp only at h
      split at h
      · cases h
        exact ⟨p, rfl, ‹_›, rfl⟩
      · cases h
  | _ => cases h

theorem packEach_cons_eq_ok {types : TypeTable} {t : ValueType} {params : List ValueType} {v : Value}
    {args given : List Value} : types.packEach (t :: params) (v :: args) = .ok given ↔
      ∃ u, types.packOne t v = .ok u ∧ ∃ rest, types.packEach params args = .ok rest ∧ u :: rest = given := by
  rw [packEach]
  simp only [bind_eq_ok, pure_eq_ok]

theorem packEach_of_accepts {types : TypeTable} {params : List ValueType} {args : List Value}
    (h : List.Forall₂ (fun t v => types.accepts t v = true) params args) :
    types.packEach params args = .ok (args.map Value.box) := by
  induction h with
  | nil => rfl
  | cons hv _ ih => exact packEach_cons_eq_ok.2 ⟨_, packOne_of_accepts hv, _, ih, rfl⟩

end TypeTable

namespace Layer

/-- What going up does: it runs the body above, or raises that there is none. -/
def wentUp (run : Runner) (op : Method) (this : ObjectRef) (args : List Value) :
    Option Method → Action Value
  | some target => do
    let result ← World.holding (Holder.ofCall this args) (run (.method target this args))
    return if op.returns.isVoid then .void else result
  | none => do
    let _ ← World.newThrowable (unsupported op)
    Action.raise (.ofException (unsupported op))

/-- What a call of a dispatcher does: the boxed arguments go into a new array, and the result is
turned into one of the operation. -/
def handedOver (run : Runner) (op : Method) (d : DispatcherId) (number : Nat) (this : ObjectRef)
    (args : List Value) : Action Value := do
  let _ ← World.newArray (args.map Value.box).toArray
  let result ← World.holding (Holder.ofCall this args)
    (run (.dispatch d this number (args.map Value.box)))
  Action.withTypes fun types => types.unboxOrCast op.returns result

/-- What passing a call on to a dispatcher does: the arguments as they are passed on go into a new array, and the
result is turned into one of the operation. -/
def passedOn (run : Runner) (op : Method) (d : DispatcherId) (number : Nat) (this : ObjectRef)
    (args given : List Value) : Action Value := do
  let _ ← World.newArray given.toArray
  let result ← World.holding (Holder.ofCall this args) (run (.dispatch d this number given))
  Action.withTypes fun types => types.unboxOrCast op.returns result

/-- The position of an operation in the table as thunks know it, in 32 bits. -/
def tableIndex (index : Nat) : Int := (Int32.ofNat index).toInt

theorem tableIndex_of_lt {index : Nat} (h : index < 0x80000000) : tableIndex index = index :=
  Int32.toInt_ofNat_of_lt h

/-- What a thunk does with a dispatcher: it reads the number of the operation in the table, and hands
the call over. -/
def dispatched (run : Runner) (op : Method) (d : DispatcherId) (count index : Nat) (this : ObjectRef)
    (args : List Value) : Action Value :=
  if 0 ≤ tableIndex index then handedOver run op d (tableIndex index).toNat this args
  else Action.raise (.indexOutOfBounds (tableIndex index) count)

open CodeBuilder (Continues Within)
open CompiledBody (Ends)

variable {unit : CompiledBody} {owner : TypeId} {code : Code} {place : Nat → Nat} {run : Runner}
  {b : CodeBuilder} {w : World} {r : Except Halt Value × World} {op : Method} {this : ObjectRef}
  {args : List Value}

theorem continues_goUp (b : CodeBuilder) (op : Method) (target : Option Method) :
    (goUp b op target).Continues b := by
  cases target with
  | some target => exact (((Continues.refl b).loads _).emitWith _ _).emit _
  | none => exact ((Continues.refl b).emitWith _ _).emit _

/-- Packing an argument starts with loading it, whatever its type is. -/
theorem continues_packArgument_load (b : CodeBuilder) (i : Nat) (t : ValueType) :
    (packArgument b i t).Continues
      (((b.emit .dup).pushInt (Int32.ofNat i)).load (CodeBuilder.param i)) := by
  have hload := Continues.refl (((b.emit .dup).pushInt (Int32.ofNat i)).load (CodeBuilder.param i))
  unfold packArgument
  cases t.kind? with
  | none => exact hload.emit _
  | some kind => exact (hload.emit _).emit _

theorem continues_packArgument (b : CodeBuilder) (i : Nat) (t : ValueType) :
    (packArgument b i t).Continues b :=
  (continues_packArgument_load b i t).trans
    ((((Continues.refl b).emit .dup).emitWith (.int (Int32.ofNat i)) .const).emit (.load (CodeBuilder.param i)))

theorem continues_packArguments (b : CodeBuilder) (i : Nat) (params : List ValueType) :
    (packArguments b i params).Continues b := by
  induction params generalizing b i with
  | nil => exact .refl b
  | cons t params ih => exact (ih _ _).trans (continues_packArgument b i t)

/-! ## Going up -/

/-- A frame with the receiver and the arguments holds what the call holds. -/
theorem holders_arguments (this : ObjectRef) (args : List Value) :
    Frame.holders ⟨(.object this :: args).toArray, []⟩ = Holder.ofCall this args := by
  simp [Frame.holders, Holder.ofCall, Value.holders]

/-- The locals that are loaded for a call are the receiver and the arguments. -/
theorem forall₂_arguments (this : ObjectRef) {args : List Value} (hsmall : args.length + 1 < 0x10000) :
    List.Forall₂ (fun i v => (Value.object this :: args).toArray[(UInt16.ofNat i).toNat]? = some v)
      (List.range (args.length + 1)) (.object this :: args) := by
  rw [List.forall₂_iff_get]
  refine ⟨by simp, fun i hi hi' => ?_⟩
  rw [List.length_range] at hi
  simp only [List.get_eq_getElem, List.getElem_range]
  rw [UInt16.toNat_ofNat_of_lt' (Nat.lt_of_lt_of_le hi (by rw [UInt16.size]; omega)),
    List.getElem?_toArray]
  exact List.getElem?_eq_getElem hi'

/-- The code that goes up ends as going up does. -/
theorem ends_goUp (hrealizes : unit.Realizes owner code place) {target : Option Method}
    (h : (goUp b op target).Within code) (hargs : args.length = op.params.length)
    (hsmall : args.length + 1 < 0x10000)
    (htarget : ∀ m ∈ target, m.slot = op.slot) :
    unit.Ends run code place b.instrs.size ⟨(.object this :: args).toArray, []⟩ w
      (wentUp run op this args target w) := by
  cases target with
  | none =>
      refine .newThrowable hrealizes h.of_emit ?_
      exact .throw hrealizes h rfl
  | some target =>
      obtain ⟨-, hreturns, hparams⟩ := Slot.mk.inj (htarget target rfl)
      have hinvoke : ((b.loadAll op.params.length).invokeSuper target).Within code := h.of_emit
      refine .loads hrealizes (forall₂_arguments this hsmall) ?_ ?_
      · rw [hargs]
        exact hinvoke.of_emitWith
      rw [hargs]
      have hstack : (Value.object this :: args).reverse = args.reverse ++ .object this :: [] :=
        List.reverse_cons
      refine .invokeSuper hrealizes hinvoke (by rw [hargs, hparams]) ((List.append_nil _).trans hstack)
        (fun e w' hrun => ?_) fun v w' hrun => ?_
      all_goals rw [holders_arguments] at hrun
      · exact Action.bind_apply_error hrun
      · have hresult : wentUp run op this args (some target) w =
            (.ok (if op.returns.isVoid then .void else v), w') := Action.bind_apply_ok hrun
        rw [hresult]
        -- nothing is left on the stack by a call without a result
        cases hvoid : op.returns.isVoid with
        | true =>
            rw [goUp, hvoid] at h
            exact .retVoid hrealizes h
        | false =>
            rw [goUp, hvoid] at h
            refine .retTop hrealizes h (?_ : _ = v :: [])
            rw [hreturns, hvoid]
            rfl

/-- A body whose frame starts with the receiver and the arguments does what its code ends as, while it
holds the type that defines it. -/
theorem run_of_ends (hrealizes : unit.Realizes owner code place)
    (hlocals : code.locals.toNat = args.length + 1) (hdefined : w.isDefined this owner = true)
    {x : Action Value} (hends : unit.Ends run code place 0 ⟨(.object this :: args).toArray, []⟩
      { w with held := [.type owner] ++ w.held } (x { w with held := [.type owner] ++ w.held }))
    {steps : Nat} (hsteps : code.instrs.size ≤ steps) :
    unit.run run steps this args w = World.holding [.type owner] x w := by
  have hstart : Frame.start unit.locals this args = ⟨(.object this :: args).toArray, []⟩ := by
    simp [Frame.start, hrealizes.locals, hlocals]
  have hloop := hends steps hsteps
  rw [hrealizes.presents.start] at hloop
  rw [CompiledBody.run, Action.bind_apply_ok (Action.get_apply w), hrealizes.owner, if_pos hdefined,
    hstart, World.holding, World.holding, Action.finally_, Action.finally_, hloop]

/-! ## Packing -/

/-- A world with one more array. -/
def withArray (w : World) (items : List Value) : World :=
  { w with arrays := w.arrays.push items.toArray }

/-- Storing in the array that was added last changes that array only. -/
theorem modify_withArray (w : World) (items : List Value) (i : Nat) (v : Value) :
    { withArray w items with
      arrays := (withArray w items).arrays.modify w.arrays.size (·.setIfInBounds i v) } =
      withArray w (items.set i v) := by
  have hpush : (w.arrays.push items.toArray).modify w.arrays.size (·.setIfInBounds i v) =
      w.arrays.push (items.set i v).toArray := by
    apply Array.ext_getElem?
    intro j
    rw [Array.getElem?_modify, Array.getElem?_push, Array.getElem?_push]
    by_cases hj : j = w.arrays.size
    · simp [hj]
    · simp [hj, Ne.symm hj]
  rw [withArray, withArray, hpush]

theorem getElem?_withArray (w : World) (items : List Value) :
    (withArray w items).arrays[w.arrays.size]? = some items.toArray := Array.getElem?_push_size

/-- An argument is on the stack, above its number and the array, before it goes into its box. -/
theorem ends_loadArgument (hrealizes : unit.Realizes owner code place) {locals : Array Value} {rest : List Value}
    {i : Nat} {a v : Value}
    (h : (((b.emit .dup).pushInt (Int32.ofNat i)).load (CodeBuilder.param i)).Within code) (hsmall : i + 1 < 0x10000)
    (hv : locals[i + 1]? = some v)
    (hends : unit.Ends run code place
      (((b.emit .dup).pushInt (Int32.ofNat i)).load (CodeBuilder.param i)).instrs.size
      ⟨locals, v :: .ofInt32 (Int32.ofNat i) :: a :: a :: rest⟩ w r) :
    unit.Ends run code place b.instrs.size ⟨locals, a :: rest⟩ w r := by
  have hlocal : locals[(CodeBuilder.param i).toNat]? = some v := by
    rw [CodeBuilder.param, UInt16.toNat_ofNat_of_lt' hsmall, hv]
  refine .dup hrealizes h.of_emit.of_emitWith rfl ?_
  refine .pushInt hrealizes h.of_emit ?_
  exact .load hrealizes h hlocal hends

theorem packArgument_of_none {i : Nat} {t : ValueType} (hkind : t.kind? = none) :
    packArgument b i t =
      (((b.emit .dup).pushInt (Int32.ofNat i)).load (CodeBuilder.param i)).emit .arrayStore := by
  rw [packArgument, hkind]

theorem packArgument_of_some {i : Nat} {t : ValueType} {kind : Kind} (hkind : t.kind? = some kind) :
    packArgument b i t =
      ((((b.emit .dup).pushInt (Int32.ofNat i)).load (CodeBuilder.param i)).emit (.box kind)).emit .arrayStore := by
  rw [packArgument, hkind]

/-- Packing an argument stores it in the array as it is passed on. -/
theorem ends_packArgument (hrealizes : unit.Realizes owner code place) {locals : Array Value}
    {rest : List Value} {i : Nat} {t : ValueType} {v u : Value} {items : List Value}
    (h : (packArgument b i t).Within code) (hi : i < items.length) (hsmall : i + 1 < 0x10000)
    (hv : locals[i + 1]? = some v) (hpack : w.types.packOne t v = .ok u)
    (hends : unit.Ends run code place (packArgument b i t).instrs.size
      ⟨locals, .array ⟨w.arrays.size⟩ :: rest⟩ (withArray w (items.set i u)) r) :
    unit.Ends run code place b.instrs.size ⟨locals, .array ⟨w.arrays.size⟩ :: rest⟩
      (withArray w items) r := by
  have hindex : (Int32.ofNat i).toInt = i := Int32.toInt_ofNat_of_lt (by omega)
  have hstored : (Int32.ofNat i).toInt.toNat < items.toArray.size := by simpa [hindex] using hi
  rw [← modify_withArray] at hends
  -- only what is passed for a primitive has a box still to come
  cases hkind : t.kind? with
  | none =>
      rw [packArgument_of_none hkind] at h hends
      rw [TypeTable.packOne_of_none hkind] at hpack
      cases hpack
      refine ends_loadArgument hrealizes h.of_emit hsmall hv ?_
      refine .arrayStore hrealizes h rfl (getElem?_withArray w items) (by omega) hstored ?_
      rw [hindex]
      exact hends
  | some kind =>
      rw [packArgument_of_some hkind] at h hends
      refine ends_loadArgument hrealizes (CodeBuilder.Within.of_emit h.of_emit) hsmall hv ?_
      obtain ⟨p, rfl, rfl, rfl⟩ := TypeTable.prim_of_packOne hkind hpack
      refine .box hrealizes h.of_emit rfl ?_
      refine .arrayStore hrealizes h rfl (getElem?_withArray w items) (by omega) hstored ?_
      rw [hindex]
      exact hends

/-- Packing arguments stores them in order as they are passed on, behind those stored before. -/
theorem ends_packArguments (hrealizes : unit.Realizes owner code place) {locals : Array Value}
    {rest : List Value} {i : Nat} {params : List ValueType} {done given : List Value}
    (hlength : params.length = args.length) (hpack : w.types.packEach params args = .ok given)
    (hlocals : ∀ j v, args[j]? = some v → locals[i + j + 1]? = some v) (hdone : done.length = i)
    (hsmall : i + args.length < 0x10000) (h : (packArguments b i params).Within code)
    (hends : unit.Ends run code place (packArguments b i params).instrs.size
      ⟨locals, .array ⟨w.arrays.size⟩ :: rest⟩ (withArray w (done ++ given)) r) :
    unit.Ends run code place b.instrs.size ⟨locals, .array ⟨w.arrays.size⟩ :: rest⟩
      (withArray w (done ++ List.replicate args.length .null)) r := by
  -- on the arguments that are left, with those that are packed in front
  induction params generalizing b i done args given with
  | nil =>
      obtain rfl := List.length_eq_zero_iff.1 hlength.symm
      cases hpack
      exact hends
  | cons t params ih =>
      obtain ⟨v, args, rfl⟩ : ∃ v rest, args = v :: rest :=
        List.exists_cons_of_ne_nil (List.ne_nil_of_length_eq_add_one hlength.symm)
      obtain ⟨u, hu, left, hrest, rfl⟩ := TypeTable.packEach_cons_eq_ok.1 hpack
      rw [List.length_cons] at hsmall
      rw [packArguments] at h hends
      have hset : (done ++ List.replicate (v :: args).length Value.null).set i u =
          (done ++ [u]) ++ List.replicate args.length Value.null := by
        subst hdone
        simp [List.replicate_succ]
      have hargument : (packArgument b i t).Within code :=
        h.of_continues (continues_packArguments _ _ _)
      refine ends_packArgument hrealizes hargument (by simp; omega) (by omega)
        (hlocals 0 v rfl) hu ?_
      rw [hset]
      refine ih (Nat.succ.inj hlength) hrest (fun j u hu => ?_) (by simp [hdone]) (by omega) h ?_
      · rw [Nat.add_right_comm i 1 j]
        exact hlocals (j + 1) u hu
      · rw [List.append_assoc]
        exact hends

/-! ## The code of a thunk -/

section Parts

variable (owner : String) (index : Nat) (op : Method)

/-- A thunk up to where it asks whether there is a dispatcher. -/
def thunkStart : CodeBuilder :=
  let b := CodeBuilder.start (bodyName owner op.name op.params op.returns) op.params.length
  (b.defineLabel.2.emit (.getStatic .dispatcher)).emit .dup

/-- A thunk up to the new array of arguments. -/
def thunkArray : CodeBuilder :=
  let b := (thunkStart owner op).emitBranch .ifNull 0
  let b := ((b.load 0).emit (.getStatic .operations)).pushInt (Int32.ofNat index)
  ((b.emit .arrayLoad).pushInt (Int32.ofNat op.params.length)).emit .newArray

/-- A thunk up to the call of the dispatcher. -/
def thunkCall : CodeBuilder := (packArguments (thunkArray owner index op) 0 op.params).emit .invokeDispatch

/-- A thunk up to where it goes up. -/
def thunkReturn : CodeBuilder :=
  let b := thunkCall owner index op
  if op.returns.isVoid then (b.emit .pop).emit .retVoid else b.retAs op.returns

/-- A whole thunk. -/
def thunkBuilder (target : Option Method) : CodeBuilder :=
  goUp (((thunkReturn owner index op).markLabel 0).emit .pop) op target

theorem thunkCode_eq (target : Option Method) :
    thunkCode owner index op target = (thunkBuilder owner index op target).finish := rfl

theorem continues_thunkArray :
    (thunkArray owner index op).Continues ((thunkStart owner op).emitBranch .ifNull 0) := by
  exact ((((((Continues.refl _).emit _).emit _).emitWith _ _).emit _).emitWith _ _).emit _

theorem continues_thunkCall :
    (thunkCall owner index op).Continues ((thunkStart owner op).emitBranch .ifNull 0) :=
  ((continues_packArguments _ _ _).trans (continues_thunkArray owner index op)).emit _

theorem continues_thunkReturn :
    (thunkReturn owner index op).Continues (thunkCall owner index op) := by
  unfold thunkReturn
  cases op.returns.isVoid with
  | true => exact ((Continues.refl _).emit _).emit _
  | false => exact (Continues.refl _).retAs _

theorem continues_thunk (target : Option Method) :
    (thunkBuilder owner index op target).Continues ((thunkReturn owner index op).markLabel 0) :=
  (continues_goUp _ _ _).trans ((Continues.refl _).emit _)

theorem wellFormed_thunk (target : Option Method) :
    (thunkBuilder owner index op target).WellFormed := by
  have hstart : (thunkStart owner op).WellFormed :=
    (((Continues.refl _).emit _).emit _).wellFormed
      (CodeBuilder.wellFormed_start _ _).defineLabel
  have htarget (t : UInt32) : (Instr.ifNull t).target? ≠ none := Option.some_ne_none t
  have hbranch : ((thunkStart owner op).emitBranch .ifNull 0).WellFormed :=
    hstart.emitBranch htarget 0
  have hreturn := ((continues_thunkReturn owner index op).trans
    (continues_thunkCall owner index op)).wellFormed hbranch
  exact (continues_thunk owner index op target).wellFormed (hreturn.markLabel 0)

/-! ## How much code a thunk is -/

theorem size_goUp_le (b : CodeBuilder) (op : Method) (target : Option Method) :
    (goUp b op target).instrs.size ≤ b.instrs.size + op.params.length + 3 := by
  cases target with
  | some target =>
      simp only [goUp, CodeBuilder.invokeSuper, CodeBuilder.size_emit, CodeBuilder.size_emitWith,
        CodeBuilder.loadAll, CodeBuilder.size_loads, List.length_range]
      omega
  | none =>
      simp only [goUp, CodeBuilder.newThrowable, CodeBuilder.size_emit, CodeBuilder.size_emitWith]
      omega

theorem size_packArgument_le (b : CodeBuilder) (i : Nat) (t : ValueType) :
    (packArgument b i t).instrs.size ≤ b.instrs.size + 5 := by
  unfold packArgument
  cases t.kind? <;> simp [CodeBuilder.load, CodeBuilder.pushInt]

theorem size_packArguments_le (b : CodeBuilder) (i : Nat) (params : List ValueType) :
    (packArguments b i params).instrs.size ≤ b.instrs.size + 5 * params.length := by
  induction params generalizing b i with
  | nil => exact Nat.le_refl _
  | cons t params ih =>
      have hrest := ih (packArgument b i t) (i + 1)
      have hfirst := size_packArgument_le b i t
      rw [packArguments, List.length_cons]
      omega

theorem size_constants_packArguments (b : CodeBuilder) (i : Nat) (params : List ValueType) :
    (packArguments b i params).constants.size = b.constants.size + params.length := by
  induction params generalizing b i with
  | nil => rfl
  | cons t params ih =>
      have hfirst : (packArgument b i t).constants.size = b.constants.size + 1 := by
        unfold packArgument
        cases t.kind? <;> exact Array.size_push _
      rw [packArguments, ih, hfirst, List.length_cons, Nat.add_assoc, Nat.add_comm 1]

theorem size_thunkCall_le :
    (thunkCall owner index op).instrs.size ≤ 5 * op.params.length + 10 := by
  have h := size_packArguments_le (thunkArray owner index op) 0 op.params
  have harray : (thunkArray owner index op).instrs.size = 9 := rfl
  rw [thunkCall, CodeBuilder.size_emit]
  omega

theorem size_thunkReturn_le :
    (thunkReturn owner index op).instrs.size ≤ 5 * op.params.length + 12 := by
  have hcall := size_thunkCall_le owner index op
  unfold thunkReturn
  cases op.returns.isVoid with
  | true =>
      simp only [if_true, CodeBuilder.size_emit]
      omega
  | false =>
      have h := CodeBuilder.size_retAs_le (thunkCall owner index op) op.returns
      simp only [Bool.false_eq_true, if_false]
      omega

end Parts

/-! ## Finished thunks -/

section Finished

variable {name : String} {index : Nat} {target : Option Method}

theorem within_thunk (h : thunkCode name index op target = .ok code) :
    (thunkBuilder name index op target).Within code :=
  CodeBuilder.within_of_finish (wellFormed_thunk name index op target) h

theorem within_thunkReturn (h : thunkCode name index op target = .ok code) :
    (thunkReturn name index op).Within code := by
  have hmarked := (within_thunk h).of_continues (continues_thunk name index op target)
  exact ⟨hmarked.instrs, hmarked.constants, hmarked.size_constants⟩

theorem within_thunkCall (h : thunkCode name index op target = .ok code) :
    (thunkCall name index op).Within code :=
  (within_thunkReturn h).of_continues (continues_thunkReturn name index op)

theorem within_thunkArray (h : thunkCode name index op target = .ok code) :
    (thunkArray name index op).Within code :=
  CodeBuilder.Within.of_continues (CodeBuilder.Within.of_emit (within_thunkCall h)) (continues_packArguments _ _ _)

theorem within_thunkStart (h : thunkCode name index op target = .ok code) : (thunkStart name op).Within code :=
  ((within_thunkArray h).of_continues (continues_thunkArray name index op)).of_emitBranch

/-- The table of constants limits how many parameters a thunk can have. -/
theorem params_lt_of_thunk (h : thunkCode name index op target = .ok code) :
    op.params.length + 1 < 0x10000 := by
  have hsize := (within_thunkCall h).size_constants_le
  have hpacked : (thunkCall name index op).constants.size = 2 + op.params.length :=
    size_constants_packArguments (thunkArray name index op) 0 op.params
  rw [CodeBuilder.maxConstants] at hsize
  omega

theorem locals_of_thunk (h : thunkCode name index op target = .ok code) :
    code.locals.toNat = op.params.length + 1 := by
  have hlt := params_lt_of_thunk h
  rw [thunkCode_eq] at h
  obtain ⟨_, -, -, rfl⟩ := CodeBuilder.patched_of_finish h
  have hlocals : (thunkBuilder name index op target).locals = UInt16.ofNat (op.params.length + 1) :=
    (continues_thunk name index op target).locals.trans
      ((continues_thunkReturn name index op).trans (continues_thunkCall name index op)).locals
  change (thunkBuilder name index op target).locals.toNat = _
  rw [hlocals, UInt16.toNat_ofNat_of_lt' hlt]

theorem size_thunk_le (h : thunkCode name index op target = .ok code) :
    code.instrs.size ≤ 6 * op.params.length + 16 := by
  rw [thunkCode_eq] at h
  rw [CodeBuilder.size_of_finish h, thunkBuilder]
  have hup := size_goUp_le (((thunkReturn name index op).markLabel 0).emit .pop) op target
  have hreturn := size_thunkReturn_le name index op
  have hmark : (((thunkReturn name index op).markLabel 0).emit .pop).instrs.size =
      (thunkReturn name index op).instrs.size + 1 := CodeBuilder.size_emit _ _
  omega

/-- The one branch of a thunk leads to where it goes up. -/
theorem branch_of_thunk (h : thunkCode name index op target = .ok code) :
    ∃ t, code.instrs[2]? = some (.ifNull t) ∧ t.toNat = (thunkReturn name index op).instrs.size := by
  have hcontinues := continues_thunk name index op target
  have hreturn := (continues_thunkReturn name index op).trans (continues_thunkCall name index op)
  have hbranches : (2, 0) ∈ (thunkBuilder name index op target).branches := by
    rw [hcontinues.branches]
    change (2, 0) ∈ (thunkReturn name index op).branches
    rw [hreturn.branches]
    exact List.mem_cons_self
  obtain ⟨p, hp, hi⟩ := CodeBuilder.branch_of_finish (wellFormed_thunk name index op target) h
    hbranches (hcontinues.instrs (hreturn.instrs rfl))
  rw [hcontinues.markOf?_eq] at hp
  have hmark : p = (thunkReturn name index op).instrs.size := (Option.some.inj hp).symm
  refine ⟨_, hi, ?_⟩
  have hlt := params_lt_of_thunk h
  have hsize := size_thunkReturn_le name index op
  rw [hmark, UInt32.toNat_ofNat_of_lt' (by rw [UInt32.size]; omega)]

theorem dispatched_of_lt {d : DispatcherId} {count : Nat} (h : index < 0x80000000) :
    dispatched run op d count index this args = handedOver run op d index this args := by
  have hindex := tableIndex_of_lt h
  rw [dispatched, if_pos (by omega), hindex, Int.toNat_natCast]

theorem tableIndex_toNat_le (index : Nat) : (tableIndex index).toNat ≤ index := by
  have hsize : (Int32.size : Int) = 2 ^ 32 := rfl
  rw [tableIndex, Int32.toInt_ofNat', Int.bmod_def, hsize]
  split <;> omega

/-- What is left of a thunk after the call of the dispatcher ends with the result of the operation. -/
theorem ends_thunkReturn (hrealizes : unit.Realizes owner code place)
    (h : (thunkReturn name index op).Within code) {locals : Array Value} {v : Value} :
    unit.Ends run code place (thunkCall name index op).instrs.size ⟨locals, [v]⟩ w
      (Action.withTypes (fun types => types.unboxOrCast op.returns v) w) := by
  unfold thunkReturn at h
  cases hvoid : op.returns.isVoid with
  | true =>
      rw [hvoid] at h
      have hreturns : op.returns = .void := by
        cases hr : op.returns <;> simp_all [ValueType.isVoid]
      rw [hreturns]
      exact .pop hrealizes h.of_emit rfl (.retVoid hrealizes h)
  | false =>
      rw [hvoid] at h
      exact .retAs hrealizes h rfl

/-- Whether the number of an operation fits the table index that a thunk has, a thunk with a dispatcher makes an array
for the arguments. -/
theorem ends_thunkArray (hrealizes : unit.Realizes owner code place)
    (h : (thunkArray name index op).Within code) (hsmall : op.params.length + 1 < 0x10000) {d : DispatcherId}
    {t : HostType} {g : Generation}
    (ht : (w.types.lineage owner).find? (fun t => t.generated.any (·.role == .proxy)) = some t)
    (hg : t.generated = some g) {count : Nat} (hindex : index < count)
    (htable : w.arrays[g.table.index]? = some ((Array.range count).map .operation))
    (hnumber : 0 ≤ tableIndex index)
    (hends : unit.Ends run code place (thunkArray name index op).instrs.size
      ⟨(.object this :: args).toArray, [.array ⟨w.arrays.size⟩, .operation (tableIndex index).toNat, .object this,
        .dispatcher d]⟩ (withArray w (List.replicate op.params.length .null)) r) :
    unit.Ends run code place 3 ⟨(.object this :: args).toArray, [.dispatcher d]⟩ w r := by
  refine .load hrealizes (b := (thunkStart name op).emitBranch .ifNull 0)
    h.of_emit.of_emitWith.of_emit.of_emitWith.of_emit rfl ?_
  refine .getOperations hrealizes h.of_emit.of_emitWith.of_emit.of_emitWith ht hg ?_
  refine .pushInt hrealizes h.of_emit.of_emitWith.of_emit ?_
  have hle := tableIndex_toNat_le index
  have hitem : ((Array.range count).map Value.operation)[(tableIndex index).toNat]? =
      some (.operation (tableIndex index).toNat) := by
    rw [Array.getElem?_map, Array.getElem?_range, if_pos (by omega)]
    rfl
  have hcount : (Int32.ofNat op.params.length).toInt = op.params.length :=
    Int32.toInt_ofNat_of_lt (by omega)
  refine .arrayLoad hrealizes h.of_emit.of_emitWith rfl htable hnumber hitem ?_
  refine .pushInt hrealizes h.of_emit ?_
  refine .newArray hrealizes h rfl (by omega) ?_
  have hnull : Array.replicate (Int32.ofNat op.params.length).toInt.toNat Value.null =
      (List.replicate op.params.length Value.null).toArray := by
    simp [hcount]
  rw [hnull]
  exact hends

/-- The locals of a thunk behind the receiver are the arguments. -/
theorem getElem?_arguments (this : ObjectRef) (j : Nat) (v : Value) (hv : args[j]? = some v) :
    (Value.object this :: args).toArray[0 + j + 1]? = some v := by
  simpa using hv

/-- With a dispatcher a thunk ends as passing the call on does. -/
theorem ends_passedOn (hcode : thunkCode name index op target = .ok code)
    (hrealizes : unit.Realizes owner code place) {d : DispatcherId} {t : HostType} {g : Generation}
    (ht : (w.types.lineage owner).find? (fun t => t.generated.any (·.role == .proxy)) = some t)
    (hg : t.generated = some g) {count : Nat} (hindex : index < count)
    (htable : w.arrays[g.table.index]? = some ((Array.range count).map .operation))
    (hlength : op.params.length = args.length) {given : List Value}
    (hpack : w.types.packEach op.params args = .ok given) (hnumber : 0 ≤ tableIndex index) :
    unit.Ends run code place 3 ⟨(.object this :: args).toArray, [.dispatcher d]⟩ w
      (passedOn run op d (tableIndex index).toNat this args given w) := by
  have hcall := within_thunkCall hcode
  have hpacked := CodeBuilder.Within.of_emit hcall
  have hlt := params_lt_of_thunk hcode
  refine ends_thunkArray hrealizes (hpacked.of_continues (continues_packArguments _ _ _)) hlt ht hg hindex htable
    hnumber ?_
  rw [hlength]
  refine ends_packArguments hrealizes hlength hpack (getElem?_arguments this) List.length_nil (by omega)
    hpacked ?_
  -- the array is complete, and what is left of the stack is empty
  have hover : passedOn run op d (tableIndex index).toNat this args given w =
      (World.holding (Holder.ofCall this args)
        (run (.dispatch d this (tableIndex index).toNat given)) >>= fun result =>
          Action.withTypes fun types => types.unboxOrCast op.returns result)
        (withArray w given) := rfl
  rw [hover]
  refine .invokeDispatch hrealizes hcall rfl (getElem?_withArray w _) (fun e w' hrun => ?_)
    fun v w' hrun => ?_
  all_goals
    rw [holders_arguments, List.nil_append] at hrun
  · exact Action.bind_apply_error hrun
  · rw [Action.bind_apply_ok hrun]
    exact ends_thunkReturn hrealizes (within_thunkReturn hcode)

/-- With a dispatcher a thunk ends as handing the call over does. -/
theorem ends_dispatched (hcode : thunkCode name index op target = .ok code)
    (hrealizes : unit.Realizes owner code place) {d : DispatcherId} {t : HostType} {g : Generation}
    (ht : (w.types.lineage owner).find? (fun t => t.generated.any (·.role == .proxy)) = some t)
    (hg : t.generated = some g) {count : Nat} (hindex : index < count)
    (htable : w.arrays[g.table.index]? = some ((Array.range count).map .operation))
    (haccepts : List.Forall₂ (fun t v => w.types.accepts t v = true) op.params args) :
    unit.Ends run code place 3 ⟨(.object this :: args).toArray, [.dispatcher d]⟩ w
      (dispatched run op d count index this args w) := by
  unfold dispatched
  -- an index that does not fit is negative, so that loading the operation raises
  by_cases hnumber : 0 ≤ tableIndex index
  · rw [if_pos hnumber]
    exact ends_passedOn hcode hrealizes ht hg hindex htable haccepts.length_eq
      (TypeTable.packEach_of_accepts haccepts) hnumber
  · have harray := (CodeBuilder.Within.of_emit (within_thunkCall hcode)).of_continues (continues_packArguments _ _ _)
    rw [if_neg hnumber]
    have hsize : ((Array.range count).map Value.operation).size = count := by simp
    rw [← hsize]
    refine .load hrealizes (b := (thunkStart name op).emitBranch .ifNull 0)
      harray.of_emit.of_emitWith.of_emit.of_emitWith.of_emit rfl ?_
    refine .getOperations hrealizes harray.of_emit.of_emitWith.of_emit.of_emitWith ht hg ?_
    refine .pushInt hrealizes harray.of_emit.of_emitWith.of_emit ?_
    exact .arrayLoad_negative hrealizes harray.of_emit.of_emitWith rfl htable hnumber

/-- Without a dispatcher a thunk ends as going up does. -/
theorem ends_wentUp (hcode : thunkCode name index op target = .ok code)
    (hrealizes : unit.Realizes owner code place) (hargs : args.length = op.params.length)
    (htarget : ∀ m ∈ target, m.slot = op.slot) {v : Value} :
    unit.Ends run code place (thunkReturn name index op).instrs.size
      ⟨(.object this :: args).toArray, [v]⟩ w (wentUp run op this args target w) := by
  have hup := within_thunk hcode
  have hlt := params_lt_of_thunk hcode
  refine .pop hrealizes (b := (thunkReturn name index op).markLabel 0)
    (hup.of_continues (continues_goUp _ _ _)) rfl ?_
  exact ends_goUp hrealizes hup hargs (by omega) htarget

/-- What a thunk does: it hands the call over if its type has a dispatcher, and goes up if not. -/
def thunkMeaning (run : Runner) (id : TypeId) (op : Method) (count index : Nat)
    (target : Option Method) (this : ObjectRef) (args : List Value) : Action Value := do
  match (← get).dispatcherOf? id with
  | some d => dispatched run op d count index this args
  | none => wentUp run op this args target

theorem thunkMeaning_of_some {id : TypeId} {count : Nat} {d : DispatcherId}
    (h : w.dispatcherOf? id = some d) :
    thunkMeaning run id op count index target this args w =
      dispatched run op d count index this args w := by
  rw [thunkMeaning, Action.bind_apply_ok (Action.get_apply w), h]

theorem thunkMeaning_of_none {id : TypeId} {count : Nat} (h : w.dispatcherOf? id = none) :
    thunkMeaning run id op count index target this args w = wentUp run op this args target w := by
  rw [thunkMeaning, Action.bind_apply_ok (Action.get_apply w), h]

/-- A thunk looks whether its type has a dispatcher, and goes on with it on its stack. -/
theorem ends_thunkOpening (hcode : thunkCode name index op target = .ok code)
    (hrealizes : unit.Realizes owner code place) {t : HostType}
    (ht : (w.types.lineage owner).find? (fun t => t.generated.any (·.role == .proxy)) = some t)
    {locals : Array Value}
    (hsome : ∀ d, w.dispatcherOf? t.id = some d → unit.Ends run code place 3 ⟨locals, [.dispatcher d]⟩ w r)
    (hnone : w.dispatcherOf? t.id = none →
      unit.Ends run code place (thunkReturn name index op).instrs.size ⟨locals, [.null]⟩ w r) :
    unit.Ends run code place 0 ⟨locals, []⟩ w r := by
  obtain ⟨up, hi, hup⟩ := branch_of_thunk hcode
  have hcontinues := continues_thunkCall name index op
  have hstart : (thunkStart name op).Within code :=
    ((within_thunkCall hcode).of_continues hcontinues).of_emitBranch
  have hpos : 2 < (thunkReturn name index op).instrs.size := by
    have hlast := ((continues_thunkReturn name index op).trans hcontinues).instrs
      (Array.getElem?_push_size : ((thunkStart name op).instrs.push (.ifNull 0xffffffff))[_]? = _)
    exact (Array.getElem?_eq_some_iff.1 hlast).1
  refine .getDispatcher hrealizes (b := (CodeBuilder.start _ _).defineLabel.2) hstart.of_emit ht ?_
  refine .dup hrealizes hstart rfl ?_
  refine .ifNull hrealizes hi rfl (hup ▸ hpos) (fun hnull => ?_) fun hother => ?_
  -- what is null or not on the stack is the dispatcher of the type
  all_goals rcases hd : w.dispatcherOf? t.id with _ | d
  · rw [hup]
    exact hnone hd
  · rw [hd] at hnull
    cases hnull
  · rw [hd] at hother
    exact (hother rfl).elim
  · exact hsome d hd

/-- A thunk ends as it is meant to. -/
theorem ends_thunk (hcode : thunkCode name index op target = .ok code)
    (hrealizes : unit.Realizes owner code place) {t : HostType} {g : Generation}
    (ht : (w.types.lineage owner).find? (fun t => t.generated.any (·.role == .proxy)) = some t)
    (hg : t.generated = some g) {count : Nat} (hindex : index < count)
    (htable : w.arrays[g.table.index]? = some ((Array.range count).map .operation))
    (haccepts : List.Forall₂ (fun t v => w.types.accepts t v = true) op.params args)
    (htarget : ∀ m ∈ target, m.slot = op.slot) :
    unit.Ends run code place 0 ⟨(.object this :: args).toArray, []⟩ w
      (thunkMeaning run t.id op count index target this args w) := by
  refine ends_thunkOpening hcode hrealizes ht (fun d hd => ?_) fun hd => ?_
  · rw [thunkMeaning_of_some hd]
    exact ends_dispatched hcode hrealizes ht hg hindex htable haccepts
  · rw [thunkMeaning_of_none hd]
    exact ends_wentUp hcode hrealizes haccepts.length_eq.symm htarget

/-- Running a thunk does what it is meant to, with as many instructions as it has. -/
theorem run_thunk (hcode : thunkCode name index op target = .ok code)
    (hrealizes : unit.Realizes owner code place) {t : HostType} {g : Generation}
    (ht : (w.types.lineage owner).find? (fun t => t.generated.any (·.role == .proxy)) = some t)
    (hg : t.generated = some g) {count : Nat} (hindex : index < count)
    (htable : w.arrays[g.table.index]? = some ((Array.range count).map .operation))
    (haccepts : List.Forall₂ (fun t v => w.types.accepts t v = true) op.params args)
    (htarget : ∀ m ∈ target, m.slot = op.slot) (hdefined : w.isDefined this owner = true)
    {steps : Nat} (hsteps : code.instrs.size ≤ steps) :
    unit.run run steps this args w =
      World.holding [.type owner] (thunkMeaning run t.id op count index target this args) w := by
  have hlocals := locals_of_thunk hcode
  rw [haccepts.length_eq] at hlocals
  exact run_of_ends hrealizes hlocals hdefined
    (ends_thunk (w := { w with held := [.type owner] ++ w.held }) hcode hrealizes ht hg hindex htable
      haccepts htarget) hsteps

end Finished

end Layer

end Interpose
