import Interpose.Proofs.BackEnds

/-!
# Verified code is sound

The depths that verification records are those of every run: wherever a run is, the instruction is
there to be fetched and the stack is as deep as was recorded for it. So a frame never takes from an
empty stack, never misses a local or a constant and never runs off its end; only a call that it makes
can end with such a fault.
-/

namespace Interpose

/-! ## Faults that verification rules out -/

namespace FrameFault

/-- Whether verification finds a fault before code is run. -/
def isVerified : FrameFault → Bool
  | code _ => true
  | ranOffEnd => true
  | undecodable _ => true
  | _ => false

/-- How the wording of a fault begins. -/
def opening (fault : FrameFault) : List Char := fault.message.toList.take 4

/-- How the wordings of the faults begin that verification finds. -/
def verifiedOpenings : List (List Char) :=
  ["empt", "cont", "inco", "loca", "cons", "stac", "bran", "malf"].map (·.toList)

/-- How the wordings of the others begin. -/
def otherOpenings : List (List Char) := ["expe", "stat", "cann", "defi"].map (·.toList)

theorem opening_mem (fault : FrameFault) :
    fault.opening ∈ if fault.isVerified then verifiedOpenings else otherOpenings := by
  cases fault
  case code fault =>
    cases fault <;>
      · delta opening message CodeFault.message
        simp [isVerified, verifiedOpenings]
  all_goals
    delta opening message
    simp [isVerified, verifiedOpenings, otherOpenings]

/-- Wordings tell the faults that verification finds from the others. -/
theorem message_ne {fault other : FrameFault} (h : fault.isVerified = true)
    (hother : other.isVerified = false) : fault.message ≠ other.message := by
  intro heq
  have hopening : fault.opening = other.opening := by rw [opening, heq, opening]
  have hverified := opening_mem fault
  have hothers := opening_mem other
  rw [h, if_pos rfl, hopening] at hverified
  rw [hother, if_neg Bool.false_ne_true] at hothers
  have hdisjoint : ∀ o ∈ verifiedOpenings, o ∉ otherOpenings := by decide
  exact hdisjoint _ hverified hothers

end FrameFault

/-! ## What an action meets -/

namespace Action

variable {α β : Type} {x : Action α} {w : World} {P : α → Prop} {E : Halt → Prop}

/-- Whether an action ends, from a world, with a value or an error as asked for. -/
def Meets (x : Action α) (w : World) (P : α → Prop) (E : Halt → Prop) : Prop :=
  match x w with
  | (.ok a, _) => P a
  | (.error h, _) => E h

theorem Meets.pure {a : α} (h : P a) : Meets (pure a) w P E := h

theorem Meets.halt {halt : Halt} (h : E halt) : Meets (throw halt) w P E := h

theorem Meets.bind {f : α → Action β} {Q : β → Prop} (hx : Meets x w P E)
    (hf : ∀ a w', P a → Meets (f a) w' Q E) : Meets (x >>= f) w Q E := by
  rw [Meets, bind_apply]
  rw [Meets] at hx
  rcases hw : x w with ⟨h | a, w'⟩
  · rw [hw] at hx
    exact hx
  · rw [hw] at hx
    exact hf a w' hx

theorem Meets.bind_ok {f : α → Action β} {Q : β → Prop} {a : α} {w' : World}
    (hx : x w = (.ok a, w')) (hf : Meets (f a) w' Q E) : Meets (x >>= f) w Q E := by
  rw [Meets, bind_apply_ok hx]
  exact hf

theorem Meets.get {P : World → Prop} (h : P w) : Meets get w P E := h

theorem Meets.withTypes {f : TypeTable → Except HostError α} (hok : ∀ a, f w.types = .ok a → P a)
    (herror : ∀ e, f w.types = .error e → E (.raised e)) : Meets (withTypes f) w P E := by
  rw [Meets, Action.withTypes]
  rcases hf : f w.types with e | a
  · exact herror e hf
  · exact hok a hf

theorem Meets.holding {hs : List Holder} (h : Meets x { w with held := hs ++ w.held } P E) :
    Meets (World.holding hs x) w P E := by
  rw [Meets] at h
  rw [Meets, World.holding, finally_]
  rcases hx : x { w with held := hs ++ w.held } with ⟨halt | a, w'⟩
  · rw [hx] at h
    exact h
  · rw [hx] at h
    exact h

theorem Meets.mono_error {E' : Halt → Prop} (h : Meets x w P E) (himp : ∀ halt, E halt → E' halt) :
    Meets x w P E' := by
  rw [Meets] at h ⊢
  rcases hw : x w with ⟨halt | a, w'⟩
  · rw [hw] at h
    exact himp halt h
  · rw [hw] at h
    exact h

/-- A value has what is asked for, and what every value has that the action ends with. -/
theorem Meets.and_yields {Q : α → Prop} (h : Meets x w P E) (hx : Yields x Q) :
    Meets x w (fun a => P a ∧ Q a) E := by
  rw [Meets] at h ⊢
  rcases hw : x w with ⟨halt | a, w'⟩
  · rw [hw] at h
    exact h
  · rw [hw] at h
    exact ⟨h, hx w a w' hw⟩

theorem Meets.ok {a : α} {w' : World} (h : Meets x w P E) (hx : x w = (.ok a, w')) : P a := by
  rw [Meets, hx] at h
  exact h

theorem Meets.error {halt : Halt} {w' : World} (h : Meets x w P E) (hx : x w = (.error halt, w')) :
    E halt := by
  rw [Meets, hx] at h
  exact h

end Action

namespace CompiledBody

open Interpose.Action (Meets)

variable (unit : CompiledBody)

/-- What a body can end with when its own code is verified: a fault that verification finds is one
that a call ended with. -/
def Blames (called : Halt → Prop) (h : Halt) : Prop :=
  ∀ fault : FrameFault, fault.isVerified = true → h = .raised (unit.faultError fault) → called h

variable {unit} {called : Halt → Prop}

theorem Blames.of_called {h : Halt} (hcalled : called h) : unit.Blames called h := fun _ _ _ => hcalled

theorem Blames.mono {called' : Halt → Prop} {h : Halt} (hblames : unit.Blames called h)
    (himp : ∀ h, called h → called' h) : unit.Blames called' h :=
  fun fault hverified hfault => himp h (hblames fault hverified hfault)

/-- Running out of steps is no fault. -/
theorem Blames.exhausted : unit.Blames called .exhausted := fun _ _ heq => by cases heq

/-- A fault of another sort is none that verification finds. -/
theorem Blames.fault {fault : FrameFault} (h : fault.isVerified = false) :
    unit.Blames called (.raised (unit.faultError fault)) := by
  intro other hother heq
  injection heq with heq
  injection heq with heq
  exact absurd (String.append_right_inj _ |>.1 heq) (Ne.symm (FrameFault.message_ne hother h))

/-- An error other than that of faulty code is none that verification finds. -/
theorem Blames.raised {e : HostError} (h : ∀ text, e ≠ .invalidCode text) :
    unit.Blames called (.raised e) := by
  intro fault _ heq
  injection heq with heq
  exact absurd heq (h _)

end CompiledBody

/-! ## Frames of a depth -/

/-- Whether a frame has a number of values on its stack, and room for a number of locals. -/
structure Frame.Fits (f : Frame) (locals depth : Nat) : Prop where
  depth : f.stack.length = depth
  locals : locals ≤ f.locals.size

/-- Whether control goes on, if it does, with a frame that fits. -/
def Flow.Fits (locals depth : Nat) : Flow → Prop
  | .next f => f.Fits locals depth
  | .jump _ f => f.Fits locals depth
  | .ret _ => True

namespace Frame.Fits

variable {f : Frame} {locals depth : Nat}

/-- A frame starts with an empty stack. -/
theorem start (code : UInt16) (this : ObjectRef) (args : List Value) :
    (Frame.start code this args).Fits code.toNat 0 where
  depth := rfl
  locals := by
    simp only [Frame.start, Array.size_append, Array.size_replicate, List.size_toArray,
      List.length_cons]
    omega

theorem push (hf : f.Fits locals depth) (v : Value) : (f.push v).Fits locals (depth + 1) where
  depth := by rw [Frame.push, List.length_cons, hf.depth]
  locals := hf.locals

theorem tail (hf : f.Fits locals (depth + 1)) {v : Value} {rest : List Value}
    (hstack : f.stack = v :: rest) : ({ f with stack := rest } : Frame).Fits locals depth where
  depth := by
    have hlength := hf.depth
    rw [hstack, List.length_cons] at hlength
    exact Nat.succ.inj hlength
  locals := hf.locals

/-- A local that verification found in range is there. -/
theorem lt_size {count n : UInt16} (hf : f.Fits count.toNat depth) (hn : n < count) :
    n.toNat < f.locals.size :=
  Nat.lt_of_lt_of_le (UInt16.lt_iff_toNat_lt.1 hn) hf.locals

/-- What is under the arguments of a call is its receiver and the rest. -/
theorem drop {n : Nat} (hf : f.Fits locals (depth + (n + 1))) :
    ({ f with stack := f.stack.drop n } : Frame).Fits locals (depth + 1) where
  depth := by
    rw [List.length_drop, hf.depth]
    omega
  locals := hf.locals

end Frame.Fits

namespace CompiledBody

open Interpose.Action (Meets)

variable {unit : CompiledBody} {called : Halt → Prop} {f : Frame} {locals depth : Nat} {w : World}
  {α : Type} {P : α → Prop}

/-- Taking a value from a stack that has one goes on. -/
theorem meets_pop {g : Value × Frame → Action α} (hf : f.Fits locals (depth + 1))
    (hg : ∀ v rest, f.stack = v :: rest → ({ f with stack := rest } : Frame).Fits locals depth →
      Meets (g (v, { f with stack := rest })) w P (unit.Blames called)) :
    Meets (unit.pop f >>= g) w P (unit.Blames called) := by
  obtain ⟨v, rest, hstack⟩ := List.exists_cons_of_length_eq_add_one hf.depth
  rw [pop, hstack]
  exact hg v rest hstack (hf.tail hstack)

/-- Taking an object goes on, or ends with what no verification finds. -/
theorem meets_popObject {g : ObjectRef × Frame → Action α} (hf : f.Fits locals (depth + 1))
    (hg : ∀ o rest, f.stack = .object o :: rest → ({ f with stack := rest } : Frame).Fits locals depth →
      Meets (g (o, { f with stack := rest })) w P (unit.Blames called)) :
    Meets (unit.popObject f >>= g) w P (unit.Blames called) := by
  unfold popObject
  rw [bind_assoc]
  refine meets_pop hf fun v rest hstack hrest => ?_
  cases v
  case object o => exact hg o rest hstack hrest
  case null => exact Blames.raised (by simp)
  all_goals exact Blames.fault rfl

/-- Taking an array goes on, or ends with what no verification finds. -/
theorem meets_popArray {g : ArrayId × Frame → Action α} (hf : f.Fits locals (depth + 1))
    (hg : ∀ id rest, f.stack = .array id :: rest → ({ f with stack := rest } : Frame).Fits locals depth →
      Meets (g (id, { f with stack := rest })) w P (unit.Blames called)) :
    Meets (unit.popArray f >>= g) w P (unit.Blames called) := by
  unfold popArray
  rw [bind_assoc]
  refine meets_pop hf fun v rest hstack hrest => ?_
  cases v
  case array id => exact hg id rest hstack hrest
  case null => exact Blames.raised (by simp)
  all_goals exact Blames.fault rfl

/-- Taking an index goes on, or ends with what no verification finds. -/
theorem meets_popIndex {g : Int × Frame → Action α} (hf : f.Fits locals (depth + 1))
    (hg : ∀ i rest, ({ f with stack := rest } : Frame).Fits locals depth →
      Meets (g (i, { f with stack := rest })) w P (unit.Blames called)) :
    Meets (unit.popIndex f >>= g) w P (unit.Blames called) := by
  unfold popIndex
  rw [bind_assoc]
  refine meets_pop hf fun v rest _ hrest => ?_
  dsimp only
  rcases v.int32? with _ | i
  · exact Blames.fault rfl
  · exact hg i.toInt rest hrest

/-- Taking the arguments of a call goes on with the receiver that is under them. -/
theorem meets_popMany {n : Nat} {g : List Value × Frame → Action α}
    (hf : f.Fits locals (depth + (n + 1)))
    (hg : ({ f with stack := f.stack.drop n } : Frame).Fits locals (depth + 1) →
      Meets (g ((f.stack.take n).reverse, { f with stack := f.stack.drop n })) w P
        (unit.Blames called)) :
    Meets (unit.popMany f n >>= g) w P (unit.Blames called) := by
  have htaken : ¬ (f.stack.take n).length < n := by
    rw [List.length_take, hf.depth]
    omega
  simp only [popMany, htaken, if_false, pure_bind]
  exact hg hf.drop

/-! ## Instructions -/

variable {code : Code} {run : Runner}

theorem constant_eq (hconstants : unit.constants = code.constants) {c : UInt16} {k : Constant}
    (hk : code.constants[c.toNat]? = some k) : unit.constant c = pure k := by
  rw [constant, hconstants, hk]

/-- A constant that verification found to be of its sort is there. -/
theorem meets_constant (hconstants : unit.constants = code.constants) {c : UInt16}
    {sort : ConstantSort} {effect : Constant → Option StackEffect} {e : StackEffect}
    {g : Constant → Action α} (heffect : code.constant c sort effect = .ok e)
    (hg : ∀ k, code.constants[c.toNat]? = some k → effect k = some e →
      Meets (g k) w P (unit.Blames called)) :
    Meets (unit.constant c >>= g) w P (unit.Blames called) := by
  obtain ⟨k, hk, hkind⟩ := Code.constant_eq_ok heffect
  rw [constant_eq hconstants hk, pure_bind]
  exact hg k hk hkind

/-- So is the name of a field. -/
theorem meets_fieldName (hconstants : unit.constants = code.constants) {c : UInt16} {sort : ConstantSort}
    {effect : Constant → Option StackEffect} {e : StackEffect} {g : String → Action α}
    (heffect : code.constant c sort effect = .ok e)
    (hg : ∀ k, effect k = some e → ∃ name, k = .field name ∧ Meets (g name) w P (unit.Blames called)) :
    Meets (unit.fieldName c >>= g) w P (unit.Blames called) := by
  unfold fieldName
  rw [bind_assoc]
  refine meets_constant hconstants heffect fun k _ hkind => ?_
  obtain ⟨name, rfl, hname⟩ := hg k hkind
  exact hname

theorem meets_getField {o : ObjectRef} {name : String} :
    Meets (World.getField o name) w (fun _ => True) (unit.Blames called) := by
  refine Meets.bind (P := fun _ => True) (Meets.get trivial) fun w _ _ => ?_
  split
  · exact Meets.pure trivial
  · exact Blames.raised (by simp [World.noSuchField])

theorem meets_setField {o : ObjectRef} {name : String} {v : Value} :
    Meets (World.setField o name v) w (fun _ => True) (unit.Blames called) := by
  refine Meets.bind (P := fun _ => True) (Meets.get trivial) fun w _ _ => ?_
  split
  · exact Blames.raised (by simp [World.noSuchField])
  · split
    · exact trivial
    · exact Blames.raised (by simp [TypeTable.mismatch])

theorem meets_unboxAs {kind : Kind} {v : Value} :
    Meets (Action.withTypes fun types => types.unboxAs kind v) w (fun _ => True)
      (unit.Blames called) := by
  refine Meets.withTypes (fun _ _ => trivial) fun e he => Blames.raised fun text heq => ?_
  subst heq
  unfold TypeTable.unboxAs at he
  split at he
  · split at he <;> cases he
  · split at he <;> cases he

theorem meets_checkCast {t : ValueType} {v : Value} :
    Meets (Action.withTypes fun types => types.checkCast t v) w (fun _ => True)
      (unit.Blames called) := by
  refine Meets.withTypes (fun _ _ => trivial) fun e he => Blames.raised fun text heq => ?_
  subst heq
  unfold TypeTable.checkCast at he
  split at he <;> cases he

/-- What a call that is made while things are held ends with. -/
theorem meets_holding {hs : List Holder} {x : Action Value}
    (h : ∀ halt, (World.holding hs x w).1 = .error halt → called halt) :
    Meets (World.holding hs x) w (fun _ => True) (unit.Blames called) := by
  rw [Meets]
  rcases hx : World.holding hs x w with ⟨halt | v, w'⟩
  · exact Blames.of_called (h halt (by rw [hx]))
  · trivial

/-! ### Calls -/

section

variable {c : UInt16} {effect : StackEffect} {rest : Nat}

/-- A call takes its arguments and its receiver, and leaves a result unless it has none. -/
theorem meets_invokeSuper (hconstants : unit.constants = code.constants)
    (heffect : code.stackEffect (.invokeSuper c) = .ok effect) (hf : f.Fits locals (rest + effect.pops))
    (hcalled : ∀ task holders halt, unit.call? f w (.invokeSuper c) = some task →
      (World.holding holders (run task) w).1 = .error halt → called halt) :
    Meets (unit.step run f (.invokeSuper c)) w (Flow.Fits locals (rest + effect.pushes))
      (unit.Blames called) := by
  refine meets_constant hconstants heffect fun k hk hkind => ?_
  cases k <;> cases hkind
  next m =>
    refine meets_popMany hf fun hreceiver => ?_
    refine meets_popObject hreceiver fun o stack hstack hrest => ?_
    have hcall : unit.call? f w (.invokeSuper c) =
        some (.method m o (f.stack.take m.params.length).reverse) := by
      have hdrop : f.stack.drop m.params.length = .object o :: stack := hstack
      delta call?
      simp only [hconstants, hk, hdrop]
    refine Meets.bind (meets_holding fun halt => hcalled _ _ halt hcall) fun v _ _ => ?_
    by_cases hvoid : m.returns.isVoid
    · simp only [hvoid, if_true]
      exact hrest
    · simp only [hvoid]
      exact hrest.push v

theorem meets_invokeSuperCtor (hconstants : unit.constants = code.constants)
    (heffect : code.stackEffect (.invokeSuperCtor c) = .ok effect) (hf : f.Fits locals (rest + effect.pops))
    (hcalled : ∀ task holders halt, unit.call? f w (.invokeSuperCtor c) = some task →
      (World.holding holders (run task) w).1 = .error halt → called halt) :
    Meets (unit.step run f (.invokeSuperCtor c)) w (Flow.Fits locals (rest + effect.pushes))
      (unit.Blames called) := by
  refine meets_constant hconstants heffect fun k hk hkind => ?_
  cases k <;> cases hkind
  next k =>
    refine meets_popMany hf fun hreceiver => ?_
    refine meets_popObject hreceiver fun o stack hstack hrest => ?_
    have hcall : unit.call? f w (.invokeSuperCtor c) =
        some (.constructor k o (f.stack.take k.params.length).reverse) := by
      have hdrop : f.stack.drop k.params.length = .object o :: stack := hstack
      delta call?
      simp only [hconstants, hk, hdrop]
    exact Meets.bind (meets_holding fun halt => hcalled _ _ halt hcall) fun v _ _ => hrest

/-- A dispatched call takes the array of its arguments, the number of the operation, the receiver and the
dispatcher, and leaves a result. -/
theorem meets_invokeDispatch (hf : f.Fits locals (rest + 4))
    (hcalled : ∀ task holders halt, unit.call? f w .invokeDispatch = some task →
      (World.holding holders (run task) w).1 = .error halt → called halt) :
    Meets (unit.step run f .invokeDispatch) w (Flow.Fits locals (rest + 1)) (unit.Blames called) := by
  refine meets_popArray hf fun id others harray hrest => ?_
  refine Meets.bind_ok (World.itemsOf_apply id w) ?_
  refine meets_pop hrest fun operation others' hoperation hrest => ?_
  cases operation
  case operation n =>
    refine meets_popObject hrest fun o others'' hobject hrest => ?_
    refine meets_pop hrest fun dispatcher below hdispatcher hrest => ?_
    cases dispatcher
    case dispatcher d =>
      -- put together again, since the call is told by the stack before anything was taken
      have hstack : f.stack = .array id :: .operation n :: .object o :: .dispatcher d :: below := by
        obtain rfl : others = .operation n :: others' := hoperation
        obtain rfl : others' = .object o :: others'' := hobject
        obtain rfl : others'' = .dispatcher d :: below := hdispatcher
        exact harray
      have hcall : unit.call? f w .invokeDispatch =
          some (.dispatch d o n ((w.arrays[id.index]?).getD #[]).toList) := by
        delta call?
        simp only [hstack]
      refine Meets.bind (meets_holding fun halt => hcalled _ _ halt hcall) fun v _ _ => ?_
      exact hrest.push v
    all_goals exact Blames.fault rfl
  all_goals exact Blames.fault rfl

end

/-- An instruction that verification lets execute leaves a frame of the depth after it, or ends with
an error that is not one that verification finds, unless the call that it makes ends so. -/
theorem step_meets (hconstants : unit.constants = code.constants) {i : Instr} {after : Nat}
    (hafter : code.depthAfter depth i = .ok after) (hf : f.Fits code.locals.toNat depth)
    (hcalled : ∀ task holders halt, unit.call? f w i = some task →
      (World.holding holders (run task) w).1 = .error halt → called halt) :
    Meets (unit.step run f i) w (Flow.Fits code.locals.toNat after) (unit.Blames called) := by
  obtain ⟨effect, rest, heffect, rfl, rfl⟩ := Code.depthAfter_eq_ok hafter
  -- what an instruction takes is there, since its effect was looked up before
  cases i
  case load n =>
    simp only [Code.stackEffect] at heffect
    split at heffect
    next hn =>
      cases heffect
      simp only [step, Array.getElem?_eq_getElem (hf.lt_size hn)]
      exact hf.push _
    · cases heffect
  case store n =>
    simp only [Code.stackEffect] at heffect
    split at heffect
    next hn =>
      cases heffect
      refine meets_pop hf fun v stack _ hrest => ?_
      dsimp only
      rw [if_pos (hf.lt_size hn)]
      exact ⟨hrest.depth, by rw [Array.size_setIfInBounds]; exact hf.locals⟩
    · cases heffect
  case const c =>
    refine meets_constant hconstants heffect fun k _ hkind => ?_
    cases k <;> cases hkind
    all_goals exact hf.push _
  case null =>
    cases heffect
    exact hf.push _
  case getStatic slot =>
    cases heffect
    refine Meets.bind (P := fun _ => True) (Meets.get trivial) fun w _ _ => ?_
    split
    · exact Blames.fault rfl
    · cases slot
      all_goals
        dsimp only
        split
        · exact hf.push _
        · first | exact hf.push _ | exact Blames.fault rfl
  case getField c =>
    refine meets_fieldName hconstants heffect fun k hkind => ?_
    cases k <;> cases hkind
    refine ⟨_, rfl, meets_popObject hf fun o stack _ hrest => ?_⟩
    exact Meets.bind meets_getField fun v _ _ => hrest.push v
  case putField c =>
    refine meets_fieldName hconstants heffect fun k hkind => ?_
    cases k <;> cases hkind
    refine ⟨_, rfl, meets_pop hf fun v stack _ hrest => ?_⟩
    refine meets_popObject hrest fun o stack _ hrest => ?_
    exact Meets.bind meets_setField fun _ _ _ => hrest
  case newArray =>
    cases heffect
    refine meets_popIndex hf fun length stack hrest => ?_
    dsimp only
    split
    · exact Blames.raised (by simp)
    · exact Meets.bind (P := fun _ => True) trivial fun v _ _ => hrest.push v
  case arrayLoad =>
    cases heffect
    refine meets_popIndex hf fun index stack hrest => ?_
    refine meets_popArray hrest fun id stack _ hrest => ?_
    refine Meets.bind (P := fun _ => True) trivial fun items _ _ => ?_
    split
    · split
      · exact hrest.push _
      · exact Blames.raised (by simp)
    · exact Blames.raised (by simp)
  case arrayStore =>
    cases heffect
    refine meets_pop hf fun v stack _ hrest => ?_
    refine meets_popIndex hrest fun index stack hrest => ?_
    refine meets_popArray hrest fun id stack _ hrest => ?_
    refine Meets.bind (P := fun _ => True) trivial fun items _ _ => ?_
    split
    · exact hrest
    · exact Blames.raised (by simp)
  case box kind =>
    cases heffect
    refine meets_pop hf fun v stack _ hrest => ?_
    refine Meets.bind (P := fun _ => True) (Meets.get trivial) fun w _ _ => ?_
    split
    · split
      · exact hrest.push _
      · exact Blames.raised (by simp [TypeTable.mismatch])
    · exact Blames.raised (by simp [TypeTable.mismatch])
  case unbox kind =>
    cases heffect
    refine meets_pop hf fun v stack _ hrest => ?_
    exact Meets.bind meets_unboxAs fun v _ _ => hrest.push v
  case checkCast c =>
    refine meets_constant hconstants heffect fun k _ hkind => ?_
    cases k <;> cases hkind
    refine meets_pop hf fun v stack _ hrest => ?_
    exact Meets.bind meets_checkCast fun v _ _ => hrest.push v
  case ifNull target | ifNonNull target =>
    cases heffect
    refine meets_pop hf fun v stack _ hrest => ?_
    dsimp only
    split
    · exact hrest
    · exact hrest
  case jump target =>
    cases heffect
    exact hf
  case invokeSuper c => exact meets_invokeSuper hconstants heffect hf hcalled
  case invokeSuperCtor c => exact meets_invokeSuperCtor hconstants heffect hf hcalled
  case invokeDispatch =>
    cases heffect
    exact meets_invokeDispatch hf hcalled
  case newThrowable c =>
    refine meets_constant hconstants heffect fun k _ hkind => ?_
    cases k <;> cases hkind
    exact Meets.bind (P := fun _ => True) trivial fun v _ _ => hf.push v
  case throw =>
    cases heffect
    refine meets_pop hf fun v stack hstack hrest => ?_
    cases v
    case throwable id e =>
      refine Blames.raised fun text heq => ?_
      rcases e with ⟨kind, message⟩
      cases kind <;> cases heq
    case null => exact Blames.raised (by simp)
    all_goals exact Blames.fault rfl
  case ret =>
    cases heffect
    exact meets_pop hf fun v stack _ hrest => trivial
  case retVoid =>
    cases heffect
    exact trivial
  case dup =>
    cases heffect
    obtain ⟨v, stack, hstack⟩ := List.exists_cons_of_length_eq_add_one hf.depth
    simp only [step, hstack]
    exact hf.push v
  case pop =>
    cases heffect
    exact meets_pop hf fun v stack _ hrest => hrest

end CompiledBody

/-! ## Runs -/

/-- Where control goes on with a frame that fits, the frame there fits. -/
theorem Flow.Fits.of_state {flow : Flow} {locals depth pc p : Nat} {f : Frame}
    (h : flow.Fits locals depth) (hstate : flow.state pc = .at p f) : f.Fits locals depth := by
  cases flow <;> cases hstate <;> exact h

/-- Whether the call that is made at a moment ends with an error. -/
def Moment.CallEnds (run : Runner) (halt : Halt) (m : Moment) : Prop :=
  ∃ task holders, m.call = some task ∧ (World.holding holders (run task) m.world).1 = .error halt

/-- What verification promises of a run at an offset: an instruction of the code has its place there
and is what is fetched, the stack is as deep as was recorded for it and no deeper than the greatest
depth, and there is room for the locals. -/
structure CompiledBody.Sound (unit : CompiledBody) (code : Code) (depths : Array (Option Nat))
    (deepest : Nat) (place : Nat → Nat) (pc offset : Nat) (f : Frame) : Prop where
  offset_eq : offset = place pc
  fetch : ∃ i moved, code.instrs[pc]? = some i ∧
    ByteCode.Relocated (fun t o => o.toNat = place t.toNat) i moved ∧
    unit.image.fetch? offset = some (moved, place (pc + 1))
  depth : depths[pc]? = some (some f.stack.length)
  depth_le : f.stack.length ≤ deepest
  locals_le : code.locals.toNat ≤ f.locals.size

namespace CompiledBody

open Interpose.Action (Meets)

/-- What verification promises of a state. -/
def State.Sound (unit : CompiledBody) (code : Code) (depths : Array (Option Nat)) (deepest : Nat)
    (place : Nat → Nat) : State → Prop
  | .at offset f => ∃ pc, unit.Sound code depths deepest place pc offset f
  | .returned _ => True

variable {unit : CompiledBody} {owner : TypeId} {code : Code} {depths : Array (Option Nat)}
  {deepest : Nat} {place : Nat → Nat}

/-- A position of known depth is one that verification promises things of. -/
theorem sound_of_fits (hcertified : code.Certified depths deepest)
    (hpresents : unit.image.Presents code.instrs place) {pc depth : Nat}
    (hpc : depths[pc]? = some (some depth)) (hle : depth ≤ deepest) {f : Frame}
    (hf : f.Fits code.locals.toNat depth) :
    unit.Sound code depths deepest place pc (place pc) f := by
  obtain ⟨i, -, -, hi, -⟩ := hcertified.executable pc depth hpc
  obtain ⟨moved, hmoved, hfetch⟩ := hpresents.fetch hi
  rw [← hf.depth] at hpc hle
  exact ⟨rfl, ⟨i, moved, hi, hmoved, hfetch⟩, hpc, hle, hf.locals⟩

/-- One instruction keeps what verification promises. -/
theorem advance_meets (hcertified : code.Certified depths deepest)
    (hrealizes : unit.Realizes owner code place) (run : Runner) {pc offset : Nat} {f : Frame}
    (hs : unit.Sound code depths deepest place pc offset f) {i : Instr}
    (hi : code.instrs[pc]? = some i) (w : World) :
    Meets (unit.advance run offset f) w (State.Sound unit code depths deepest place)
      (unit.Blames fun halt => Moment.CallEnds run halt ⟨i, f, w, unit.call? f w i⟩) := by
  obtain ⟨j, after, next, hj, hafter, hreached, hle, hnext⟩ :=
    hcertified.executable pc _ hs.depth
  obtain rfl : i = j := Option.some.inj (hi.symm.trans hj)
  rw [hs.offset_eq, advance_of_presents hrealizes.presents run hi f]
  have hstep : Meets (unit.step run f i) w (Flow.Fits code.locals.toNat after)
      (unit.Blames fun halt => Moment.CallEnds run halt ⟨i, f, w, unit.call? f w i⟩) :=
    step_meets hrealizes.constants hafter ⟨rfl, hs.locals_le⟩
      fun task holders halt hcall hhalt => ⟨task, holders, hcall, hhalt⟩
  refine (hstep.and_yields (step_follows unit run f i)).bind fun flow w' hflow => ?_
  obtain ⟨hfits, hfollows⟩ := hflow
  rcases hstate : flow.state pc with ⟨p, f'⟩ | v
  · exact ⟨p, sound_of_fits hcertified hrealizes.presents (hnext p (hfollows.mem_reached hreached hstate))
      hle (hfits.of_state hstate)⟩
  · trivial

/-- So does any number of instructions. -/
theorem after_meets (hcertified : code.Certified depths deepest)
    (hrealizes : unit.Realizes owner code place) (run : Runner) (n : Nat) {s : State}
    (hs : s.Sound unit code depths deepest place) (w : World) :
    Meets (unit.after run n s) w (State.Sound unit code depths deepest place)
      (unit.Blames fun halt => ∃ m ∈ unit.trace run n s w, m.CallEnds run halt) := by
  induction n generalizing s w with
  | zero => exact hs
  | succ n ih =>
      cases s with
      | returned v => trivial
      | «at» offset f =>
          obtain ⟨pc, hs⟩ := hs
          obtain ⟨i, moved, hi, hmoved, hfetch⟩ := hs.fetch
          have hadvance := advance_meets hcertified hrealizes run hs hi w
          rw [← call?_relocated unit hmoved] at hadvance
          rw [after, trace, hfetch, Meets, Action.bind_apply]
          rcases hw : unit.advance run offset f w with ⟨halt | s', w'⟩
          · -- the instruction ends the run, with an error of its own or with that of its call
            refine (hadvance.error hw).mono fun halt hcall => ?_
            exact ⟨_, List.mem_cons_self, hcall⟩
          · refine (ih (hadvance.ok hw) w').mono_error fun halt hblames => ?_
            refine hblames.mono fun halt hcalled => ?_
            obtain ⟨m, hm, hends⟩ := hcalled
            exact ⟨m, List.mem_cons_of_mem _ hm, hends⟩

/-- A run as a whole ends with no fault that verification finds, unless a call does. -/
theorem run_meets (hcertified : code.Certified depths deepest)
    (hrealizes : unit.Realizes owner code place) (run : Runner) (steps : Nat) (this : ObjectRef)
    (args : List Value)
    (hs : (State.at 0 (.start unit.locals this args)).Sound unit code depths deepest place)
    (w : World) :
    Meets (unit.run run steps this args) w (fun _ => True)
      (unit.Blames fun halt => ∃ m ∈ unit.trace run steps (.at 0 (.start unit.locals this args))
        { w with held := .type unit.owner :: w.held }, m.CallEnds run halt) := by
  refine Meets.bind_ok (Action.get_apply w) ?_
  split
  · refine Meets.holding ?_
    rw [loop_eq_after]
    refine (after_meets hcertified hrealizes run steps hs _).bind fun s w' _ => ?_
    cases s with
    | «at» pc f => exact Meets.halt Blames.exhausted
    | returned v => exact Meets.pure trivial
  · exact Meets.halt (Blames.fault rfl)

end CompiledBody

namespace Emitter

variable {e : Emitter} {code : Code} {deepest : Nat} {owner : TypeId} {unit : CompiledBody}

/-- **Verified code is sound.** Whatever its calls do, after every number of instructions a body of
verified code is at an instruction, with the stack as deep as was recorded for it and never deeper
than verification says, or has returned; and if it ends with a fault that verification finds, whether
after a number of instructions or as a whole, the call of one of its instructions ended with that. -/
theorem verified_runs_sound (hverify : code.verify = .ok deepest) (hbody : e.body owner code = .ok unit)
    (hsize : e.backend = .assembly → ∀ bytes, ByteCode.encode code = .ok bytes →
      bytes.size < UInt32.size) :
    ∃ depths, code.depths = .ok (deepest, depths) ∧
      ∀ (run : Runner) (this : ObjectRef) (args : List Value) (n : Nat) (w : World),
        (∀ s w', unit.after run n (.at 0 (.start unit.locals this args)) w = (.ok s, w') →
          s.Sound unit code depths deepest (e.backend.place code.instrs.toList)) ∧
        (∀ fault w', fault.isVerified = true →
          unit.after run n (.at 0 (.start unit.locals this args)) w =
            (.error (.raised (unit.faultError fault)), w') →
          ∃ m ∈ unit.trace run n (.at 0 (.start unit.locals this args)) w,
            m.CallEnds run (.raised (unit.faultError fault))) ∧
        ∀ fault w', fault.isVerified = true →
          unit.run run n this args w = (.error (.raised (unit.faultError fault)), w') →
          ∃ m ∈ unit.trace run n (.at 0 (.start unit.locals this args))
              { w with held := .type unit.owner :: w.held },
            m.CallEnds run (.raised (unit.faultError fault)) := by
  obtain ⟨depths, hdepths, hcertified⟩ := Code.certified_of_verify hverify
  have hrealizes := realizes_body hbody hsize
  refine ⟨depths, hdepths, fun run this args n w => ?_⟩
  have hstart : (CompiledBody.State.at 0 (.start unit.locals this args)).Sound unit code depths deepest
      (e.backend.place code.instrs.toList) := by
    have hsound := CompiledBody.sound_of_fits hcertified hrealizes.presents hcertified.start
      (Nat.zero_le deepest) (Frame.Fits.start code.locals this args)
    rw [hrealizes.presents.start, ← hrealizes.locals] at hsound
    exact ⟨0, hsound⟩
  have hafter (w : World) := CompiledBody.after_meets hcertified hrealizes run n hstart w
  refine ⟨fun s w' hs => (hafter w).ok hs, fun fault w' hfault hw => ?_, fun fault w' hfault hw => ?_⟩
  · exact (hafter w).error hw fault hfault rfl
  · have hrun := CompiledBody.run_meets hcertified hrealizes run n this args hstart w
    exact hrun.error hw fault hfault rfl

/-- The assembled body of the code that clears its parameter is at the second instruction after the
first, with the parameter on its stack. -/
theorem verified_runs_sound_clearing :
    ∃ unit depths, clearingCode.verify = .ok 1 ∧
      (⟨.assembly, true⟩ : Emitter).body .root clearingCode = .ok unit ∧
      ByteCode.encode clearingCode = .ok clearingBytes ∧ clearingBytes.size < UInt32.size ∧
      clearingCode.depths = .ok (1, depths) ∧
      (CompiledBody.State.at 3 ⟨#[.object ⟨0, .root⟩, .str "x"], [.str "x"]⟩).Sound unit clearingCode
        depths 1 (ByteCode.offsetOf clearingCode.instrs.toList) := by
  obtain ⟨depths, hdepths, hsound⟩ := verified_runs_sound verify_clearingCode body_clearingCode
    fun _ bytes hbytes => by
      obtain rfl : clearingBytes = bytes := Except.ok.inj (encode_clearingCode.symm.trans hbytes)
      decide
  refine ⟨_, depths, verify_clearingCode, body_clearingCode, encode_clearingCode, by decide, hdepths, ?_⟩
  exact (hsound (fun _ => throw .exhausted) ⟨0, .root⟩ [.str "x"] 1 (.initial {})).1 _ _ rfl

end Emitter

end Interpose
