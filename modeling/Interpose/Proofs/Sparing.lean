import Interpose.Machine.Exec
import Interpose.Proofs.Guarding
import Interpose.Proofs.Runs
import Interpose.Proofs.Soundness

/-!
# Runs that spare tables

Nothing that runs stores into the array that a type has for the numbers of its operations, as long as what is
run is tame. A body is followed instruction by instruction: what it stores into is an array that it has made,
and such an array is apart from those of the types. Whatever is run, those arrays keep their sizes.
-/

namespace Interpose

namespace Action

variable {α β : Type} {A : Prop} {w : World} {x : Action α} {f : α → Action β} {Q Q' : World → α → Prop}
  {R : World → β → Prop}

/-- Whether a computation leads on from a guarded world, and ends with a value as asked for if with any. -/
def Spares (A : Prop) (w : World) (x : Action α) (Q : World → α → Prop) : Prop :=
  w.Guarded A → w.Onward A (x w).2 ∧ ∀ a, (x w).1 = .ok a → Q (x w).2 a

theorem Spares.pure {a : α} (h : Q w a) : Spares A w (pure a) Q := by
  intro hw
  refine ⟨.refl hw, fun b hb => ?_⟩
  cases hb
  exact h

theorem Spares.raise {e : HostError} : Spares A w (raise e : Action α) Q :=
  fun hw => ⟨.refl hw, nofun⟩

theorem Spares.halt {e : Halt} : Spares A w (throw e : Action α) Q := fun hw => ⟨.refl hw, nofun⟩

/-- What is done with a value is done in a guarded world, in which what was apart is apart. -/
theorem Spares.bind (hx : Spares A w x Q)
    (hf : ∀ a after, w.Onward A after → Q after a → Spares A after (f a) R) : Spares A w (x >>= f) R := by
  intro hw
  obtain ⟨honward, hvalue⟩ := hx hw
  rw [bind_apply]
  rcases hrun : x w with ⟨_ | a, after⟩
  · rw [hrun] at honward
    exact ⟨honward, nofun⟩
  · rw [hrun] at honward hvalue
    obtain ⟨honward', hvalue'⟩ := hf a after honward (hvalue a rfl) honward.guarded
    exact ⟨honward.trans honward', hvalue'⟩

/-- A computation that looks at the world first. -/
theorem Spares.of_get {f : World → Action β} (h : w.Guarded A → Spares A w (f w) R) :
    Spares A w ((get : Action World) >>= f) R := by
  intro hw
  rw [bind_apply_ok (get_apply w)]
  exact h hw hw

theorem Spares.ofExcept {r : Except HostError α} (h : ∀ a, r = .ok a → Q w a) : Spares A w (ofExcept r) Q := by
  cases r with
  | error e => exact .raise
  | ok a => exact .pure (h a rfl)

theorem Spares.withTypes {g : TypeTable → Except HostError α} : Spares A w (withTypes g) fun _ _ => True :=
  fun hw => Spares.ofExcept (Q := fun _ _ => True) (r := g w.types) (fun _ _ => trivial) hw

/-- What is held makes no difference. -/
theorem Spares.holding {hs : List Holder} (h : ∀ w, Spares A w x fun _ _ => True) :
    Spares A w (World.holding hs x) fun _ _ => True := by
  intro hw
  have hheld : w.Steady { w with held := hs ++ w.held } := .of_rest rfl rfl rfl
  have honward := (h _ (hheld.onward hw).guarded).1
  have hback : (x { w with held := hs ++ w.held }).2.Steady (World.holding hs x w).2 := .of_rest rfl rfl rfl
  exact ⟨((hheld.onward hw).trans honward).trans (hback.onward honward.guarded), fun _ _ => trivial⟩

theorem Spares.outcome (h : Spares A w x Q) : Spares A w (outcome x) fun after r => ∀ a, r = .ok a → Q after a := by
  intro hw
  obtain ⟨honward, hvalue⟩ := h hw
  rw [Action.outcome]
  rcases hrun : x w with ⟨(_ | e) | a, after⟩
  all_goals rw [hrun] at honward hvalue
  · refine ⟨honward, fun r hr => ?_⟩
    cases hr
  · refine ⟨honward, fun r hr a ha => ?_⟩
    cases hr
    cases ha
  · refine ⟨honward, fun r hr b hb => ?_⟩
    cases hr
    cases hb
    exact hvalue a rfl

/-- A value has what every value has that the computation ends with. -/
theorem Spares.and_yields {P : α → Prop} (h : Spares A w x Q) (hx : Yields x P) :
    Spares A w x fun after a => Q after a ∧ P a :=
  fun hw => ⟨(h hw).1, fun a ha => ⟨(h hw).2 a ha, hx w a _ (Prod.ext ha rfl)⟩⟩

/-! ## Computations that are steady -/

/-- Whether a computation changes neither types nor the arrays that are there. -/
def SteadyAt (w : World) (x : Action α) : Prop := w.Steady (x w).2

/-- Whether a computation does so in every world. -/
def Steady (x : Action α) : Prop := ∀ w, SteadyAt w x

theorem SteadyAt.pure {a : α} : SteadyAt w (pure a) := .refl w

theorem SteadyAt.raise {e : HostError} : SteadyAt w (raise e : Action α) := .refl w

theorem SteadyAt.spares (h : SteadyAt w x) : Spares A w x fun _ _ => True :=
  fun hw => ⟨h.onward hw, fun _ _ => trivial⟩

theorem Steady.pure {a : α} : Steady (pure a) := fun _ => .pure

theorem Steady.bind (hx : Steady x) (hf : ∀ a, Steady (f a)) : Steady (x >>= f) := by
  intro w
  have hfirst := hx w
  rw [SteadyAt] at hfirst ⊢
  rw [bind_apply]
  rcases hw : x w with ⟨_ | a, after⟩
  all_goals rw [hw] at hfirst
  · exact hfirst
  · exact hfirst.trans (hf a after)

theorem Steady.of_get {f : World → Action α} (h : ∀ w, SteadyAt w (f w)) :
    Steady ((get : Action World) >>= f) := by
  intro w
  rw [SteadyAt, bind_apply_ok (get_apply w)]
  exact h w

theorem Steady.spares (h : Steady x) : Spares A w x fun _ _ => True := (h w).spares

theorem Quiet.steady (h : x.Quiet) : Steady x := by
  intro w
  rw [SteadyAt, h w]
  exact .refl w

theorem Quiet.spares (h : x.Quiet) : Spares A w x fun _ _ => True := h.steady.spares

end Action

open Interpose.Action (Spares Steady SteadyAt)

namespace World

theorem steady_newArray (items : Array Value) : Action.Steady (newArray items) := fun w => .push w items

theorem steady_issue : Action.Steady issue := fun _ => .of_rest rfl rfl rfl

theorem steady_newThrowable (e : HostException) : Action.Steady (newThrowable e) :=
  .bind steady_issue fun _ => .pure

theorem steady_report (text : String) : Action.Steady (report text) := fun _ => .of_rest rfl rfl rfl

theorem steady_keepInstance (name : String) (id : InstanceId) : Action.Steady (keepInstance name id) :=
  fun _ => .of_rest rfl rfl rfl

theorem steady_addInstance (i : Instance) : Action.Steady (addInstance i) := fun _ => .of_rest rfl rfl rfl

theorem steady_allocate (cls : TypeId) : Action.Steady (allocate cls) := by
  refine .of_get fun w => ?_
  split
  · exact .raise
  · split
    · exact .raise
    · exact .of_rest rfl rfl rfl

theorem steady_setField (o : ObjectRef) (name : String) (v : Value) : Action.Steady (setField o name v) := by
  refine .of_get fun w => ?_
  split
  · exact .raise
  · split
    · exact .of_rest rfl rfl rfl
    · exact .raise

theorem steady_bind (o : ObjectRef) (id : InstanceId) : Action.Steady (bind o id) := by
  refine .of_get fun w => ?_
  split
  · exact .pure
  · exact .of_rest rfl rfl rfl

theorem steady_boundTo (o : ObjectRef) : Action.Steady (boundTo o) := by
  refine .of_get fun w => ?_
  split
  · exact .pure
  · split
    · exact .of_rest rfl rfl rfl
    · exact .pure

theorem steady_setProperty (id : InstanceId) (name : String) (v : Value) :
    Action.Steady (setProperty id name v) := by
  refine .of_get fun w => ?_
  split
  · exact .raise
  · split
    · exact steady_setField _ _ _ w
    · exact .of_rest rfl rfl rfl

mutual

theorem steady_evaluate (l : Literal) : Action.Steady (evaluate l) := by
  cases l with
  | value v => exact .pure
  | array items => exact .bind (steady_evaluateAll items) fun _ => steady_newArray _
  | throwable e => exact steady_newThrowable e
  | interpreter name => exact (Action.Quiet.bind (quiet_kept _ _ _) fun _ => .pure).steady
  | token => exact .bind steady_issue fun _ => .pure
  | dispatcher name => exact (Action.Quiet.bind (quiet_kept _ _ _) fun _ => .pure).steady
  | ref name => exact (quiet_keptValue name).steady

theorem steady_evaluateAll (items : List Literal) : Action.Steady (evaluateAll items) := by
  cases items with
  | nil => exact .pure
  | cons l rest =>
      exact .bind (steady_evaluate l) fun _ => .bind (steady_evaluateAll rest) fun _ => .pure

end

variable {A : Prop} {w : World}

/-- A new array is apart from those that types have. -/
theorem spares_newArray (items : Array Value) : Spares A w (newArray items) fun after v => after.Apart v := by
  intro hw
  refine ⟨(Steady.push w items).onward hw, fun v hv id hid => ?_⟩
  cases hv
  cases hid
  refine ⟨?_, fun t ht g hg => Nat.ne_of_lt (hw.lt_size ht hg)⟩
  show w.arrays.size < (w.arrays.push items).size
  rw [Array.size_push]
  exact Nat.lt_succ_self _

/-- Storing into an array keeps the sizes of all, and the items of those that it is apart from. -/
theorem spares_storeItem {id : ArrayId} (h : A → w.Apart (.array id)) (i : Nat) (v : Value) :
    Spares A w (storeItem id i v) fun _ _ => True := by
  intro hw
  let after : World := { w with arrays := w.arrays.modify id.index fun items => items.setIfInBounds i v }
  refine ⟨show w.Onward A after from ⟨⟨fun t ht g hg => ?_, hw.types, hw.accessors⟩, fun v hv id hid => ?_⟩,
    fun _ _ => trivial⟩
  · obtain ⟨items, hitems, hsize, hcontents⟩ := hw.table t ht g hg
    by_cases hid : id.index = g.table.index
    · refine ⟨items.setIfInBounds i v, ?_, ?_, fun hA => ?_⟩
      · rw [Array.getElem?_modify, if_pos hid, hitems]
        rfl
      · rw [Array.size_setIfInBounds, hsize]
      · exact absurd hid.symm (((h hA) id rfl).2 t ht g hg)
    · refine ⟨items, ?_, hsize, hcontents⟩
      rw [Array.getElem?_modify, if_neg hid, hitems]
  · obtain ⟨hlt, hother⟩ := hv id hid
    exact ⟨by rwa [Array.size_modify], hother⟩

end World

/-! ## Frames -/

/-- Whether each value of a frame that is marked is apart. -/
structure Frame.Marked (f : Frame) (m : Marks) (w : World) : Prop where
  locals : ∀ (k : Nat) v, m.locals k = true → f.locals[k]? = some v → w.Apart v
  stack : ∀ (k : Nat) v, m.stack[k]? = some true → f.stack[k]? = some v → w.Apart v

/-- Whether control goes on, if it does, with a frame of which something is known. -/
def Flow.Marked (m : Marks) (w : World) : Flow → Prop
  | .next f => f.Marked m w
  | .jump _ f => f.Marked m w
  | .ret _ => True

/-- Whether control goes on after an instruction, if so is asked, with a frame of which as much is known as the
instruction tells. -/
def Flow.MarkedAfter (A : Prop) (code : Code) (m : Marks) (i : Instr) (w : World) (flow : Flow) : Prop :=
  A → flow.Marked (m.after code i) w

namespace Frame.Marked

variable {f : Frame} {m : Marks} {w after : World} {code : Code} {i : Instr} {pops : Nat}

/-- Nothing is known of a frame at first. -/
theorem start (f : Frame) (w : World) : f.Marked .start w := ⟨nofun, nofun⟩

theorem onward (h : f.Marked m w) (honward : ∀ v, w.Apart v → after.Apart v) : f.Marked m after :=
  ⟨fun k v hk hv => honward v (h.locals k v hk hv), fun k v hk hv => honward v (h.stack k v hk hv)⟩

/-- Values are taken from the stack, and others put there of which as much is known as is told. -/
theorem put (h : f.Marked m w) (pops : Nat) (bs : List Bool) (vs : List Value)
    (hvs : List.Forall₂ (fun b v => b = true → w.Apart v) bs vs) :
    Frame.Marked ⟨f.locals, vs ++ f.stack.drop pops⟩ (m.put pops bs) w := by
  refine ⟨h.locals, fun k v hk hv => ?_⟩
  rw [Marks.put, List.getElem?_append] at hk
  rw [List.getElem?_append, ← hvs.length_eq] at hv
  split at hk
  · rename_i hlt
    rw [if_pos hlt] at hv
    obtain ⟨v', hv', hapart⟩ := getElem?_of_forall₂ hvs hk
    cases hv'.symm.trans hv
    exact hapart rfl
  · rename_i hlt
    rw [if_neg hlt, List.getElem?_drop] at hv
    rw [List.getElem?_drop] at hk
    exact h.stack _ v hk hv

/-- A value of which nothing is known is put there. -/
theorem push (h : f.Marked m w) (pops : Nat) (v : Value) :
    Frame.Marked ⟨f.locals, v :: f.stack.drop pops⟩ (m.put pops [false]) w :=
  h.put pops [false] [v] (.cons nofun .nil)

/-- Values are only taken. -/
theorem drop (h : f.Marked m w) (pops : Nat) : Frame.Marked ⟨f.locals, f.stack.drop pops⟩ (m.put pops []) w :=
  h.put pops [] [] .nil

/-- What an instruction puts there is known to be nothing of the body's own, unless it is tracked. -/
theorem push_after (h : f.Marked m w) (heffect : code.stackEffect i = .ok ⟨pops, 1⟩)
    (huntracked : i.isTracked = false) (v : Value) :
    Frame.Marked ⟨f.locals, v :: f.stack.drop pops⟩ (m.after code i) w := by
  rw [Marks.after_eq_put m heffect huntracked]
  exact h.push pops v

/-- An instruction only takes values. -/
theorem drop_after (h : f.Marked m w) (heffect : code.stackEffect i = .ok ⟨pops, 0⟩)
    (huntracked : i.isTracked = false) : Frame.Marked ⟨f.locals, f.stack.drop pops⟩ (m.after code i) w := by
  rw [Marks.after_eq_put m heffect huntracked]
  exact h.drop pops

/-- What is known of the value on top. -/
theorem head {locals : Array Value} {v : Value} {rest : List Value} (h : Frame.Marked ⟨locals, v :: rest⟩ m w)
    (htop : m.stack.headD false = true) : w.Apart v := by
  refine h.stack 0 v ?_ rfl
  cases hstack : m.stack with
  | nil => rw [hstack] at htop; cases htop
  | cons b bs => rw [hstack] at htop; exact congrArg some htop

/-- The value on top is moved to a local. -/
theorem store {locals : Array Value} {v : Value} {rest : List Value} (h : Frame.Marked ⟨locals, v :: rest⟩ m w)
    (n : Nat) : Frame.Marked ⟨locals.setIfInBounds n v, rest⟩
      { m.put 1 [] with locals := fun k => if k = n then m.stack.headD false else m.locals k } w := by
  refine ⟨fun k v' hk hv => ?_, (h.drop 1).stack⟩
  dsimp only at hk hv
  by_cases hkn : k = n
  · subst hkn
    rw [if_pos rfl] at hk
    rw [Array.getElem?_setIfInBounds_self] at hv
    split at hv
    · cases hv
      exact h.head hk
    · cases hv
  · rw [if_neg hkn] at hk
    rw [Array.getElem?_setIfInBounds_ne (Ne.symm hkn)] at hv
    exact h.locals k v' hk hv

end Frame.Marked

/-! ## Instructions -/

namespace Instr

variable {i : Instr} {f : Frame} {t : UInt32}

/-- An instruction leads to the place after it if control goes on there. -/
theorem mem_leads_of_next (h : (Flow.next f).Follows i) (next : Nat) : next ∈ i.leads next := by
  rw [leads]
  rcases h with h | ⟨t, h⟩
  all_goals rw [h]; exact List.mem_cons_self

/-- An instruction leads to the target of a jump. -/
theorem mem_leads_of_jump (h : (Flow.jump t f).Follows i) (next : Nat) : t.toNat ∈ i.leads next := by
  rw [leads]
  rcases h with h | h
  all_goals rw [h]; simp

end Instr

/-- Whether a way of running tasks leads on with each task, which is tame if so is asked. -/
def Runner.Spares (A : Prop) (run : Runner) : Prop :=
  ∀ task, (A → task.Tame) → ∀ w, Action.Spares A w (run task) fun _ _ => True

namespace CompiledBody

variable {A : Prop} {unit : CompiledBody} {code : Code} {run : Runner} {w : World} {α : Type}
  {Q : World → α → Prop} {locals : Array Value} {stack : List Value} {f : Frame} {m : Marks}

/-- Taking a value goes on with it, or ends. -/
theorem spares_pop {g : Value × Frame → Action α}
    (hg : ∀ v rest, stack = v :: rest → Spares A w (g (v, ⟨locals, rest⟩)) Q) :
    Spares A w (unit.pop ⟨locals, stack⟩ >>= g) Q := by
  cases stack with
  | nil => exact .halt
  | cons v rest => exact hg v rest rfl

theorem spares_popObject {g : ObjectRef × Frame → Action α}
    (hg : ∀ o rest, stack = .object o :: rest → Spares A w (g (o, ⟨locals, rest⟩)) Q) :
    Spares A w (unit.popObject ⟨locals, stack⟩ >>= g) Q := by
  unfold popObject
  rw [bind_assoc]
  refine spares_pop fun v rest hstack => ?_
  cases v
  case object o => exact hg o rest hstack
  all_goals exact .halt

theorem spares_popArray {g : ArrayId × Frame → Action α}
    (hg : ∀ id rest, stack = .array id :: rest → Spares A w (g (id, ⟨locals, rest⟩)) Q) :
    Spares A w (unit.popArray ⟨locals, stack⟩ >>= g) Q := by
  unfold popArray
  rw [bind_assoc]
  refine spares_pop fun v rest hstack => ?_
  cases v
  case array id => exact hg id rest hstack
  all_goals exact .halt

theorem spares_popIndex {g : Int × Frame → Action α}
    (hg : ∀ i v rest, stack = v :: rest → Spares A w (g (i, ⟨locals, rest⟩)) Q) :
    Spares A w (unit.popIndex ⟨locals, stack⟩ >>= g) Q := by
  unfold popIndex
  rw [bind_assoc]
  refine spares_pop fun v rest hstack => ?_
  dsimp only
  cases v.int32? with
  | none => exact .halt
  | some i => exact hg i.toInt v rest hstack

theorem spares_popMany {n : Nat} {g : List Value × Frame → Action α}
    (hg : Spares A w (g ((stack.take n).reverse, ⟨locals, stack.drop n⟩)) Q) :
    Spares A w (unit.popMany ⟨locals, stack⟩ n >>= g) Q := by
  rw [popMany]
  split
  · exact .halt
  · exact hg

theorem spares_constant (hconstants : unit.constants = code.constants) {c : UInt16} {g : Constant → Action α}
    (hg : ∀ k, code.constants[c.toNat]? = some k → Spares A w (g k) Q) :
    Spares A w (unit.constant c >>= g) Q := by
  cases hk : code.constants[c.toNat]? with
  | none =>
      rw [constant, hconstants, hk]
      exact .halt
  | some k =>
      rw [constant_eq hconstants hk, pure_bind]
      exact hg k hk

/-- The name of a field has its place among the constants. -/
theorem spares_fieldName (hconstants : unit.constants = code.constants) {c : UInt16} {g : String → Action α}
    (hg : ∀ name, code.constants[c.toNat]? = some (.field name) → Spares A w (g name) Q) :
    Spares A w (unit.fieldName c >>= g) Q := by
  unfold fieldName
  rw [bind_assoc]
  refine spares_constant hconstants fun k hk => ?_
  cases k
  case field name => exact hg name hk
  all_goals exact .halt

section

variable {c : UInt16} (hf : A → Frame.Marked ⟨locals, stack⟩ m w)
include hf

theorem spares_load (n : UInt16) :
    Spares A w (unit.step run ⟨locals, stack⟩ (.load n)) (Flow.MarkedAfter A code m (.load n)) := by
  cases hv : locals[n.toNat]? with
  | none =>
      simp only [step, hv]
      exact .halt
  | some v =>
      simp only [step, hv]
      exact .pure fun hA => (hf hA).put 0 [m.locals n.toNat] [v] (.cons (fun hm => (hf hA).locals _ v hm hv) .nil)

theorem spares_store (n : UInt16) :
    Spares A w (unit.step run ⟨locals, stack⟩ (.store n)) (Flow.MarkedAfter A code m (.store n)) := by
  refine spares_pop fun v rest hstack => ?_
  subst hstack
  dsimp only
  split
  · exact .pure fun hA => (hf hA).store n.toNat
  · exact .halt

theorem spares_dup : Spares A w (unit.step run ⟨locals, stack⟩ .dup) (Flow.MarkedAfter A code m .dup) := by
  cases stack with
  | nil => exact .halt
  | cons v rest => exact .pure fun hA => (hf hA).put 0 [m.stack.headD false] [v] (.cons (hf hA).head .nil)

theorem spares_const (hconstants : unit.constants = code.constants) :
    Spares A w (unit.step run ⟨locals, stack⟩ (.const c)) (Flow.MarkedAfter A code m (.const c)) := by
  refine spares_constant hconstants fun k hk => ?_
  cases k
  case int v =>
    have heffect : code.stackEffect (.const c) = .ok ⟨0, 1⟩ := Code.constant_of_some hk rfl
    exact .pure fun hA => (hf hA).push_after heffect rfl _
  case str v =>
    have heffect : code.stackEffect (.const c) = .ok ⟨0, 1⟩ := Code.constant_of_some hk rfl
    exact .pure fun hA => (hf hA).push_after heffect rfl _
  all_goals exact .halt

/-- The slots of a type are read, and nothing is known of what they have. -/
theorem spares_getStatic (slot : StaticSlot) :
    Spares A w (unit.step run ⟨locals, stack⟩ (.getStatic slot)) (Flow.MarkedAfter A code m (.getStatic slot)) := by
  refine .of_get fun _ => ?_
  split
  · exact .halt
  · cases slot
    case dispatcher =>
      dsimp only
      split
      · exact .pure fun hA => (hf hA).push 0 _
      · exact .pure fun hA => (hf hA).push 0 _
    case operations =>
      dsimp only
      split
      · exact .pure fun hA => (hf hA).push 0 _
      · exact .halt

theorem spares_getField (hconstants : unit.constants = code.constants) :
    Spares A w (unit.step run ⟨locals, stack⟩ (.getField c)) (Flow.MarkedAfter A code m (.getField c)) := by
  refine spares_fieldName hconstants fun name hk => spares_popObject fun o rest hstack => ?_
  subst hstack
  have heffect : code.stackEffect (.getField c) = .ok ⟨1, 1⟩ := Code.constant_of_some hk rfl
  refine .bind (World.quiet_getField o name).spares fun v after honward _ => .pure fun hA => ?_
  exact ((hf hA).onward honward.apart).push_after heffect rfl v

theorem spares_putField (hconstants : unit.constants = code.constants) :
    Spares A w (unit.step run ⟨locals, stack⟩ (.putField c)) (Flow.MarkedAfter A code m (.putField c)) := by
  refine spares_fieldName hconstants fun name hk => spares_pop fun v below hstack =>
    spares_popObject fun o rest hbelow => ?_
  subst hstack hbelow
  have heffect : code.stackEffect (.putField c) = .ok ⟨2, 0⟩ := Code.constant_of_some hk rfl
  refine .bind (World.steady_setField o name v).spares fun _ after honward _ => .pure fun hA => ?_
  exact ((hf hA).onward honward.apart).drop_after heffect rfl

theorem spares_makeArray :
    Spares A w (unit.step run ⟨locals, stack⟩ .newArray) (Flow.MarkedAfter A code m .newArray) := by
  refine spares_popIndex fun length v rest hstack => ?_
  subst hstack
  dsimp only
  split
  · exact .halt
  · refine .bind (World.spares_newArray _) fun v after honward hapart => .pure fun hA => ?_
    exact ((hf hA).onward honward.apart).put 1 [true] [v] (.cons (fun _ => hapart) .nil)

theorem spares_arrayLoad :
    Spares A w (unit.step run ⟨locals, stack⟩ .arrayLoad) (Flow.MarkedAfter A code m .arrayLoad) := by
  refine spares_popIndex fun index v below hstack => spares_popArray fun id rest hbelow => ?_
  subst hstack hbelow
  refine .bind (World.quiet_itemsOf id).spares fun items after honward _ => ?_
  split
  · split
    · exact .pure fun hA => ((hf hA).onward honward.apart).push 2 _
    · exact .halt
  · exact .halt

/-- What is stored into is third on the stack. -/
theorem spares_arrayStore (hstore : A → m.stack[2]? = some true) :
    Spares A w (unit.step run ⟨locals, stack⟩ .arrayStore) (Flow.MarkedAfter A code m .arrayStore) := by
  refine spares_pop fun v below hstack => spares_popIndex fun index n under hbelow =>
    spares_popArray fun id rest hunder => ?_
  subst hstack hbelow hunder
  refine .bind (World.quiet_itemsOf id).spares fun items after honward _ => ?_
  split
  · have hmarked (hA : A) : Frame.Marked ⟨locals, v :: n :: .array id :: rest⟩ m after :=
      (hf hA).onward honward.apart
    have hown (hA : A) : after.Apart (.array id) := (hmarked hA).stack 2 _ (hstore hA) rfl
    refine .bind (World.spares_storeItem hown _ _) fun _ stored hstored _ => .pure fun hA => ?_
    exact ((hmarked hA).onward hstored.apart).drop 3
  · exact .halt

theorem spares_box (kind : Kind) :
    Spares A w (unit.step run ⟨locals, stack⟩ (.box kind)) (Flow.MarkedAfter A code m (.box kind)) := by
  refine spares_pop fun v rest hstack => .of_get fun _ => ?_
  subst hstack
  split
  · split
    · exact .pure fun hA => (hf hA).push 1 _
    · exact .halt
  · exact .halt

theorem spares_unbox (kind : Kind) :
    Spares A w (unit.step run ⟨locals, stack⟩ (.unbox kind)) (Flow.MarkedAfter A code m (.unbox kind)) := by
  refine spares_pop fun v rest hstack => ?_
  subst hstack
  exact .bind .withTypes fun _ after honward _ => .pure fun hA => ((hf hA).onward honward.apart).push 1 _

theorem spares_checkCast (hconstants : unit.constants = code.constants) :
    Spares A w (unit.step run ⟨locals, stack⟩ (.checkCast c)) (Flow.MarkedAfter A code m (.checkCast c)) := by
  refine spares_constant hconstants fun k hk => ?_
  cases k
  case type t =>
    refine spares_pop fun v rest hstack => ?_
    subst hstack
    have heffect : code.stackEffect (.checkCast c) = .ok ⟨1, 1⟩ := Code.constant_of_some hk rfl
    refine .bind .withTypes fun v after honward _ => .pure fun hA => ?_
    exact ((hf hA).onward honward.apart).push_after heffect rfl v
  all_goals exact .halt

theorem spares_throwable (hconstants : unit.constants = code.constants) :
    Spares A w (unit.step run ⟨locals, stack⟩ (.newThrowable c)) (Flow.MarkedAfter A code m (.newThrowable c)) := by
  refine spares_constant hconstants fun k hk => ?_
  cases k
  case throwable e =>
    have heffect : code.stackEffect (.newThrowable c) = .ok ⟨0, 1⟩ := Code.constant_of_some hk rfl
    refine .bind (World.steady_newThrowable e).spares fun v after honward _ => .pure fun hA => ?_
    exact ((hf hA).onward honward.apart).push_after heffect rfl v
  all_goals exact .halt

variable (hrun : run.Spares A)
include hrun

/-- A call has its arguments and its receiver taken, and leaves a result unless it has none. -/
theorem spares_invokeSuper (hconstants : unit.constants = code.constants)
    (hmethods : A → ∀ m, .method m ∈ code.constants → m.Tame) :
    Spares A w (unit.step run ⟨locals, stack⟩ (.invokeSuper c)) (Flow.MarkedAfter A code m (.invokeSuper c)) := by
  refine spares_constant hconstants fun k hk => ?_
  cases k
  case method called =>
    refine spares_popMany (spares_popObject fun o rest hrest => ?_)
    obtain rfl : stack.drop (called.params.length + 1) = rest := by rw [← List.tail_drop, hrest, List.tail_cons]
    have htame (hA : A) : called.Tame := hmethods hA called (Array.mem_of_getElem? hk)
    have heffect : code.stackEffect (.invokeSuper c) =
        .ok ⟨called.params.length + 1, if called.returns.isVoid then 0 else 1⟩ := Code.constant_of_some hk rfl
    refine .bind (.holding fun w => hrun (.method called o _) htame w) fun result after honward _ =>
      .pure fun hA => ?_
    have hmarked := (hf hA).onward honward.apart
    by_cases hvoid : called.returns.isVoid
    · rw [if_pos hvoid] at heffect ⊢
      exact hmarked.drop_after heffect rfl
    · rw [if_neg hvoid] at heffect ⊢
      exact hmarked.push_after heffect rfl result
  all_goals exact .halt

theorem spares_invokeSuperCtor (hconstants : unit.constants = code.constants)
    (hctors : A → ∀ c, .ctor c ∈ code.constants → c.Tame) :
    Spares A w (unit.step run ⟨locals, stack⟩ (.invokeSuperCtor c))
      (Flow.MarkedAfter A code m (.invokeSuperCtor c)) := by
  refine spares_constant hconstants fun k hk => ?_
  cases k
  case ctor called =>
    refine spares_popMany (spares_popObject fun o rest hrest => ?_)
    obtain rfl : stack.drop (called.params.length + 1) = rest := by rw [← List.tail_drop, hrest, List.tail_cons]
    have htame (hA : A) : called.Tame := hctors hA called (Array.mem_of_getElem? hk)
    have heffect : code.stackEffect (.invokeSuperCtor c) = .ok ⟨called.params.length + 1, 0⟩ :=
      Code.constant_of_some hk rfl
    refine .bind (.holding fun w => hrun (.constructor called o _) htame w) fun _ after honward _ =>
      .pure fun hA => ?_
    exact ((hf hA).onward honward.apart).drop_after heffect rfl
  all_goals exact .halt

/-- Whatever is dispatched is tame. -/
theorem spares_invokeDispatch :
    Spares A w (unit.step run ⟨locals, stack⟩ .invokeDispatch) (Flow.MarkedAfter A code m .invokeDispatch) := by
  refine spares_popArray fun id below hstack => ?_
  subst hstack
  refine .bind (World.quiet_itemsOf id).spares fun items after honward _ => spares_pop fun v under hbelow => ?_
  subst hbelow
  cases v
  case operation n =>
    refine spares_popObject fun o rest hunder => spares_pop fun d bottom hrest => ?_
    subst hunder hrest
    cases d
    case dispatcher d =>
      refine .bind (.holding fun w => hrun (.dispatch d o n _) (fun _ => trivial) w) fun result called hcalled _ =>
        .pure fun hA => ?_
      exact (((hf hA).onward honward.apart).onward hcalled.apart).push 4 result
    all_goals exact .of_get fun _ => .halt
  all_goals exact .of_get fun _ => .halt

end

section

variable (hconstants : unit.constants = code.constants) (hrun : run.Spares A)
  (hmethods : A → ∀ m, .method m ∈ code.constants → m.Tame) (hctors : A → ∀ c, .ctor c ∈ code.constants → c.Tame)
include hconstants hrun hmethods hctors

/-- An instruction leads on, with a frame of which as much is known as the instruction tells, if it stores into
nothing but an array that the body has made. -/
theorem spares_step {i : Instr} (hf : A → f.Marked m w) (hstore : A → i = .arrayStore → m.stack[2]? = some true) :
    Spares A w (unit.step run f i) (Flow.MarkedAfter A code m i) := by
  obtain ⟨locals, stack⟩ := f
  cases i with
  | load n => exact spares_load hf n
  | store n => exact spares_store hf n
  | const c => exact spares_const hf hconstants
  | null => exact .pure fun hA => (hf hA).push 0 _
  | getStatic slot => exact spares_getStatic hf slot
  | getField c => exact spares_getField hf hconstants
  | putField c => exact spares_putField hf hconstants
  | newArray => exact spares_makeArray hf
  | arrayLoad => exact spares_arrayLoad hf
  | arrayStore => exact spares_arrayStore hf fun hA => hstore hA rfl
  | box kind => exact spares_box hf kind
  | unbox kind => exact spares_unbox hf kind
  | checkCast c => exact spares_checkCast hf hconstants
  | ifNull target | ifNonNull target =>
      refine spares_pop fun v rest hstack => .pure fun hA => ?_
      subst hstack
      split <;> exact (hf hA).drop 1
  | jump target => exact .pure fun hA => (hf hA).drop 0
  | invokeSuper c => exact spares_invokeSuper hf hrun hconstants hmethods
  | invokeSuperCtor c => exact spares_invokeSuperCtor hf hrun hconstants hctors
  | invokeDispatch => exact spares_invokeDispatch hf hrun
  | newThrowable c => exact spares_throwable hf hconstants
  | throw =>
      refine spares_pop fun v rest hstack => ?_
      dsimp only
      split
      · exact .halt
      · exact .halt
      · exact .of_get fun _ => .halt
  | ret => exact spares_pop fun v rest hstack => .pure fun _ => trivial
  | retVoid => exact .pure fun _ => trivial
  | dup => exact spares_dup hf
  | pop =>
      refine spares_pop fun v rest hstack => .pure fun hA => ?_
      subst hstack
      exact (hf hA).drop 1

/-- Whether control is, if so is asked, where it can come with what is known of the frame. -/
def State.Marked (A : Prop) (code : Code) (image : Image) (w : World) : State → Prop
  | .at pc f => ∃ m, A → code.Reaches image pc m ∧ f.Marked m w
  | .returned _ => True

variable {pc : Nat} (hstores : A → code.StoresOwnIn unit.image)
include hstores

/-- Control stays where it can come. -/
theorem spares_advance (hstate : (State.at pc f).Marked A code unit.image w) :
    Spares A w (unit.advance run pc f) fun after s => s.Marked A code unit.image after := by
  obtain ⟨m, hm⟩ := hstate
  unfold advance
  cases hfetch : unit.image.fetch? pc with
  | none => exact .halt
  | some fetched =>
      obtain ⟨i, next⟩ := fetched
      have hstep := spares_step hconstants hrun hmethods hctors (i := i) (fun hA => (hm hA).2) fun hA hi =>
        hstores hA pc m next (hm hA).1 (hi ▸ hfetch)
      refine .bind (hstep.and_yields (step_follows unit run f i)) fun flow after _ hflow => ?_
      obtain ⟨hmarked, hfollows⟩ := hflow
      have hgo (hA : A) {q : Nat} (hq : q ∈ i.leads next) : code.Reaches unit.image q (m.after code i) :=
        .go (hm hA).1 hfetch hq
      cases flow with
      | next f => exact .pure ⟨_, fun hA => ⟨hgo hA (Instr.mem_leads_of_next hfollows next), hmarked hA⟩⟩
      | jump t f => exact .pure ⟨_, fun hA => ⟨hgo hA (Instr.mem_leads_of_jump hfollows next), hmarked hA⟩⟩
      | ret v => exact .pure trivial

theorem spares_loop (steps : Nat) (hstate : (State.at pc f).Marked A code unit.image w) :
    Spares A w (unit.loop run steps pc f) fun _ _ => True := by
  induction steps generalizing pc f w with
  | zero => exact .halt
  | succ steps ih =>
      refine .bind (spares_advance hconstants hrun hmethods hctors hstores hstate) fun s after _ hs => ?_
      cases s with
      | «at» next f => exact ih hs
      | returned v => exact .pure trivial

end

/-- A body leads on. -/
theorem spares_run (hunit : A → unit.Tame) (hrun : run.Spares A) (steps : Nat) (this : ObjectRef)
    (args : List Value) : Spares A w (unit.run run steps this args) fun _ _ => True := by
  -- what the body is made of matters only if it is asked to be tame
  have hcode : ∃ code : Code, unit.constants = code.constants ∧ (A → code.StoresOwnIn unit.image) ∧
      (A → ∀ m, .method m ∈ code.constants → m.Tame) ∧ (A → ∀ c, .ctor c ∈ code.constants → c.Tame) := by
    by_cases hA : A
    · obtain ⟨hconstants, hstores, hmethods, hctors⟩ := hunit hA
      exact ⟨_, hconstants, fun _ => hstores, fun _ => hmethods, fun _ => hctors⟩
    · exact ⟨⟨unit.name, 0, unit.locals, #[], unit.constants⟩, rfl, fun h => absurd h hA, fun h => absurd h hA,
        fun h => absurd h hA⟩
  obtain ⟨code, hconstants, hstores, hmethods, hctors⟩ := hcode
  refine .of_get fun _ => ?_
  split
  · refine .holding fun w => spares_loop hconstants hrun hmethods hctors hstores steps ?_
    exact ⟨.start, fun _ => ⟨.start, .start _ w⟩⟩
  · exact .halt

end CompiledBody

end Interpose
