import Interpose.Machine.Exec
import Interpose.Proofs.Dispatching
import Interpose.Proofs.Following
import Interpose.Proofs.Hierarchies

/-!
# What operations override

The accessor that a proxy has for an operation goes up, whether there is a dispatcher or not. So
running what an operation overrides comes to the body that the operation has above the proxy, on the
arguments as they were before they were boxed.
-/

namespace Interpose

open Interpose.Action (ComesTo)

/-- The name under which the accessor of an operation is looked for. -/
def Method.accessorName (op : Method) : String := Naming.accessor op.name op.returns

/-- No operation is named as its accessor is. -/
theorem Method.name_ne_accessorName (op : Method) : op.name ≠ op.accessorName := by
  intro h
  have hlength := congrArg String.length h
  rw [accessorName, Naming.accessor, Naming.accessorMark] at hlength
  simp only [String.length_append] at hlength
  have hmark : "super$".length = 6 := rfl
  omega

/-! ## Arguments that were boxed -/

namespace TypeTable

variable {types : TypeTable} {t : ValueType} {v : Value}

/-- A value that a slot accepts is what comes out of its box. -/
theorem unboxOrCast_box (h : types.accepts t v = true) : types.unboxOrCast t v.box = .ok v := by
  cases t with
  | void =>
      cases v <;> first | rfl | simp [accepts] at h
  | primitive k =>
      cases v <;> simp_all [accepts, unboxOrCast, unboxAs, Value.box, Value.primitive?]
  | reference name =>
      have hbox : v.box = v := box_of_accepts h
      rw [unboxOrCast, hbox, checkCast, hbox, if_pos h]
  | array item =>
      have hbox : v.box = v := box_of_accepts h
      rw [unboxOrCast, hbox, checkCast, hbox, if_pos h]

/-- Arguments that parameters accept are what comes out of their boxes. -/
theorem coerceArgs_box {params : List ValueType} {args : List Value}
    (h : List.Forall₂ (fun t v => types.accepts t v = true) params args) :
    types.coerceArgs params (args.map Value.box) = .ok args := by
  have heach : types.coerceEach params (args.map Value.box) = .ok args := by
    induction h with
    | nil => rfl
    | cons hv _ ih =>
        rw [List.map_cons, coerceEach, unboxOrCast_box hv]
        change (do
          let rest ← types.coerceEach _ _
          return _ :: rest) = _
        rw [ih]
        rfl
  rw [coerceArgs, List.length_map, if_pos h.length_eq, heach]

/-- Arguments that were coerced are as many as the parameters. -/
theorem length_of_coerceArgs {params : List ValueType} {given args : List Value}
    (h : types.coerceArgs params given = .ok args) : args.length = params.length := by
  have heach : ∀ (params : List ValueType) (given args : List Value), params.length = given.length →
      types.coerceEach params given = .ok args → args.length = params.length := by
    intro params
    induction params with
    | nil =>
        rintro (_ | ⟨v, given⟩) args hlength h
        · cases h
          rfl
        · cases hlength
    | cons t params ih =>
        rintro (_ | ⟨v, given⟩) args hlength h
        · cases hlength
        · rw [coerceEach, bind_eq_ok] at h
          obtain ⟨u, -, h⟩ := h
          rw [bind_eq_ok] at h
          obtain ⟨rest, hrest, h⟩ := h
          rw [pure_eq_ok] at h
          rw [← h, List.length_cons, List.length_cons, ih given rest (Nat.succ.inj hlength) hrest]
  rw [coerceArgs] at h
  split at h
  · rename_i hlength
    exact heach params given args hlength h
  · cases h

/-- Whether a parameter takes an argument does not depend on its box. -/
theorem acceptsArgument_unboxed_box (types : TypeTable) (t : ValueType) (v : Value) :
    types.acceptsArgument t v.box.unboxed = types.acceptsArgument t v := by
  cases t <;> cases v <;> rfl

/-- Which parameters take arguments does not depend on their boxes. -/
theorem acceptsArgs_unboxed_box (types : TypeTable) (params : List ValueType) (args : List Value) :
    types.acceptsArgs params ((args.map Value.box).map (·.unboxed)) = types.acceptsArgs params args := by
  rw [acceptsArgs, acceptsArgs, List.length_map, List.length_map, List.map_map,
    List.zip_map_right, List.all_map]
  congr 2
  funext ⟨t, v⟩
  exact acceptsArgument_unboxed_box types t v

/-- The accessor that is found for an operation of a type is the first among the type's own methods. -/
theorem findAccessor_of_find? {t : HostType} {op a : Method} (hlookup : types.lookup? t.id = some t)
    (h : t.methods.find? (fun m => m.name == op.accessorName && m.params == op.params) = some a) :
    types.findAccessor t.id op = .ok a := by
  obtain ⟨rest, hlineage⟩ := lineage_of_lookup? hlookup
  rw [Method.accessorName] at h
  rw [findAccessor, hlineage, List.flatMap_cons, List.find?_append, h, Option.some_or]

/-- An accessor has the parameters of its operation. -/
theorem params_of_findAccessor {real : TypeId} {op a : Method} (h : types.findAccessor real op = .ok a) :
    a.params = op.params := by
  have hfound := List.find?_some (find?_of_findAccessor h)
  rw [Bool.and_eq_true] at hfound
  exact beq_iff_eq.1 hfound.2

end TypeTable

/-! ## Code that goes up -/

namespace Layer

variable {owner : TypeId} {label : String} {op : Method} {target : Option Method} {code : Code}
  {unit : CompiledBody} {place : Nat → Nat} {run : Runner} {this : ObjectRef} {args : List Value}
  {w : World}

section

variable (h : (goUp (CodeBuilder.start label op.params.length) op target).finish = .ok code)

include h

theorem within_goUp : (goUp (CodeBuilder.start label op.params.length) op target).Within code :=
  CodeBuilder.within_of_finish
    ((continues_goUp _ op target).wellFormed (CodeBuilder.wellFormed_start _ _)) h

theorem size_goUp_start_le : code.instrs.size ≤ op.params.length + 3 := by
  have hup := size_goUp_le (CodeBuilder.start label op.params.length) op target
  have hstart : (CodeBuilder.start label op.params.length).instrs.size = 0 := rfl
  rw [CodeBuilder.size_of_finish h]
  omega

theorem locals_of_goUp (hsmall : op.params.length + 1 < 0x10000) : code.locals.toNat = op.params.length + 1 := by
  obtain ⟨_, -, -, rfl⟩ := CodeBuilder.patched_of_finish h
  change (goUp (CodeBuilder.start label op.params.length) op target).locals.toNat = _
  rw [(continues_goUp _ op target).locals]
  exact UInt16.toNat_ofNat_of_lt' hsmall

/-- Running code that goes up goes up. -/
theorem run_goUp {e : Emitter} (hunit : e.body owner code = .ok unit) (hsmall : op.params.length + 1 < 0x10000)
    (hargs : args.length = op.params.length) (htarget : ∀ m ∈ target, m.slot = op.slot)
    (hdefined : w.isDefined this owner = true) {steps : Nat} (hsteps : op.params.length + 3 ≤ steps) :
    unit.run run steps this args w =
      World.holding [.type owner] (wentUp run op this args target) w := by
  have hsize := size_goUp_start_le h
  have hrealizes : unit.Realizes owner code (e.backend.place code.instrs.toList) := by
    refine Emitter.realizes_of_size_lt hunit ?_
    rw [UInt32.size]
    omega
  have hlocals := locals_of_goUp h hsmall
  rw [← hargs] at hlocals
  exact run_of_ends hrealizes hlocals hdefined
    (ends_goUp hrealizes (within_goUp h) hargs (by omega) htarget) (Nat.le_trans hsize hsteps)

end

end Layer

/-! ## Host sides -/

/-- A task lets go of all that it held. -/
theorem held_exec (steps depth : Nat) (task : Task) (w : World) :
    (exec steps depth task w).2.held = w.held := by
  cases depth <;> rfl

namespace Layer

/-- The host side of an operation: its body above on the receiver and the arguments, or the error that
there is none. -/
def hostSide (run : Runner) (op : Method) (this : ObjectRef) (args : List Value) :
    Option Method → Action Value
  | some target => run (.method target this args)
  | none => do
    let _ ← World.newThrowable (unsupported op)
    Action.raise (.ofException (unsupported op))

/-- Going up comes to the host side. -/
theorem comesTo_wentUp (steps depth : Nat) (op : Method) (this : ObjectRef) (args : List Value)
    (target : Option Method) (w : World) :
    ComesTo w (wentUp (exec steps depth) op this args target)
      (hostSide (exec steps depth) op this args target) fun _ v =>
        .ok (if op.returns.isVoid then .void else v) := by
  cases target with
  | none =>
      refine (ComesTo.refl rfl).congr fun w' v after _ h => ?_
      cases h
  | some target => exact (ComesTo.refl (held_exec _ _ _ _)).holding.map _

end Layer

/-- What an operation overrides is what the accessor that is found for it does, on the arguments as its parameters
take them. -/
theorem Runner.comesTo_overridden_of_coerced {run : Runner} {w : World} {p : PlatformId} {this : ObjectRef}
    {op a : Method} {given args : List Value} {y : Action Value}
    {f : TypeTable → Value → Except HostError Value}
    (hsound : (w.platform p).accessors.Sound w.types)
    (hfound : w.types.findAccessor this.cls op = .ok a)
    (hcoerced : w.types.coerceArgs op.params given = .ok args)
    (h : ∀ w', w.Aside w' → ComesTo w' (run (.method a this args)) y f) :
    ComesTo w (run.overridden p this op given) y f := by
  obtain ⟨found, w', hresolve, rfl, haside, hheld⟩ := resolve_apply hsound hfound
  refine .after hresolve haside hheld ?_
  have hcoerce : Action.withTypes (fun types => types.coerceArgs found.accessor.params given) w' =
      (.ok args, w') := by
    rw [Action.withTypes, haside.types, TypeTable.params_of_findAccessor hfound, hcoerced]
    rfl
  exact .after hcoerce (.refl w') rfl (h w' haside)

/-- What an operation overrides is what the accessor that is found for it does, on the arguments as they
were before they were boxed. -/
theorem Runner.comesTo_overridden {run : Runner} {w : World} {p : PlatformId} {this : ObjectRef}
    {op a : Method} {args : List Value} {y : Action Value} {f : TypeTable → Value → Except HostError Value}
    (hsound : (w.platform p).accessors.Sound w.types)
    (hfound : w.types.findAccessor this.cls op = .ok a)
    (haccepts : List.Forall₂ (fun t v => w.types.accepts t v = true) op.params args)
    (h : ∀ w', w.Aside w' → ComesTo w' (run (.method a this args)) y f) :
    ComesTo w (run.overridden p this op (args.map Value.box)) y f :=
  comesTo_overridden_of_coerced hsound hfound (TypeTable.coerceArgs_box haccepts) h

/-- Whether an operation stands in the way where the accessor of another one is looked for: it has the same
parameters, and its own name or that of its accessor is the one that is looked for. -/
def Method.Hides (q op : Method) : Prop :=
  q.params = op.params ∧ (q.name = op.accessorName ∨ q.accessorName = op.accessorName)

namespace Emitter.Proxy

variable {e : Emitter} {w₀ : World} {bridge base : HostType} {operations : List Method}
  {requested : List TypeId} {t : HostType} {i : Nat} {op own : Method}

/-- A method of a proxy is the thunk of an operation, which redefines that, or the accessor. -/
theorem getElem_methods (ht : e.Proxy w₀ bridge base operations requested t) {j : Nat}
    (hj : j < t.methods.length) :
    ∃ q, operations[j / 2]? = some q ∧
      (j % 2 = 0 ∧ t.methods[j].slot = q.slot ∧ t.methods[j].modifiers = Layer.overrideModifiers q ∨
        j % 2 = 1 ∧ t.methods[j].name = q.accessorName ∧ t.methods[j].params = q.params) := by
  have hlength := ht.length
  have hq := List.getElem?_eq_getElem (show j / 2 < operations.length by omega)
  refine ⟨_, hq, ?_⟩
  rcases Nat.mod_two_eq_zero_or_one j with heven | hodd
  · obtain ⟨_, _, -, -, hmethod⟩ := ht.dispatching hq
    rw [show 2 * (j / 2) = j by omega] at hmethod
    rw [(List.getElem?_eq_some_iff.1 hmethod).2]
    exact .inl ⟨heven, rfl, rfl⟩
  · obtain ⟨_, _, -, -, hmethod⟩ := ht.upward hq
    rw [show 2 * (j / 2) + 1 = j by omega] at hmethod
    rw [(List.getElem?_eq_some_iff.1 hmethod).2]
    exact .inr ⟨hodd, rfl, rfl⟩

/-- Running the accessor of an operation goes up. -/
theorem runTask_accessor (ht : e.Proxy w₀ bridge base operations requested t)
    (hop : operations[i]? = some op) (hown : t.methods[2 * i + 1]? = some own) {w : World}
    {this : ObjectRef} (hbelow : t ∈ w.types.lineage this.cls) {args : List Value}
    (hargs : args.length = op.params.length) {steps : Nat} (hsteps : op.params.length + 3 ≤ steps)
    (run : Runner) :
    run.runTask steps (.method own this args) w = World.holding [.type t.id]
      (Layer.wentUp run op this args (Layer.superTarget? w₀.types bridge.id op)) w := by
  obtain ⟨_, _, hthunk, -, -⟩ := ht.dispatching hop
  obtain ⟨code, unit, hcode, hunit, hmethod⟩ := ht.upward hop
  rw [hmethod] at hown
  cases hown
  refine (congrFun (Runner.runTask_compiled rfl ?_) _).trans ?_
  · exact hargs
  exact Layer.run_goUp hcode hunit (Layer.params_lt_of_thunk hthunk) hargs
    (fun m hm => Layer.slot_of_superTarget? hm) (World.isDefined_of_mem_lineage hbelow) hsteps

/-- The accessor of an operation comes to its host side. -/
theorem comesTo_accessor (ht : e.Proxy w₀ bridge base operations requested t)
    (hop : operations[i]? = some op) (hown : t.methods[2 * i + 1]? = some own) {w : World}
    {this : ObjectRef} (hbelow : t ∈ w.types.lineage this.cls) {args : List Value}
    (hargs : args.length = op.params.length) {steps : Nat} (hsteps : op.params.length + 3 ≤ steps)
    (depth : Nat) :
    ComesTo w (exec steps (depth + 1) (.method own this args))
      (Layer.hostSide (exec steps depth) op this args (Layer.superTarget? w₀.types bridge.id op))
      fun _ v => .ok (if op.returns.isVoid then .void else v) := by
  refine .holding (.of_eq (ht.runTask_accessor hop hown ?_ hargs hsteps _)
    (.holding (Layer.comesTo_wentUp ..)))
  exact hbelow

/-- Looking the accessor of an operation up finds one. -/
theorem findAccessor (ht : e.Proxy w₀ bridge base operations requested t)
    (hop : operations[i]? = some op) {types : TypeTable} (hlookup : types.lookup? t.id = some t) :
    ∃ a, types.findAccessor t.id op = .ok a := by
  obtain ⟨_, _, -, -, hown⟩ := ht.upward hop
  obtain ⟨rest, hlineage⟩ := TypeTable.lineage_of_lookup? hlookup
  have hmem := List.mem_append_left (rest.flatMap (·.methods)) (List.mem_of_getElem? hown)
  have hsome : ((t.methods ++ rest.flatMap (·.methods)).find? fun m =>
      m.name == Naming.accessor op.name op.returns && m.params == op.params).isSome = true :=
    List.find?_isSome.2 ⟨_, hmem, by simp⟩
  obtain ⟨a, ha⟩ := Option.isSome_iff_exists.1 hsome
  refine ⟨a, ?_⟩
  rw [TypeTable.findAccessor, hlineage, List.flatMap_cons]
  simp only [ha]

/-- The accessor of an operation is looked for until the first operation that stands in its way: then it is
the accessor of that one, or its thunk if it is itself named as is looked for. -/
theorem findAccessor_of_first (ht : e.Proxy w₀ bridge base operations requested t) {k : Nat} {q : Method}
    (hk : operations[k]? = some q) (hhides : q.Hides op)
    (hfirst : ∀ j r, j < k → operations[j]? = some r → ¬ r.Hides op) {types : TypeTable}
    (hlookup : types.lookup? t.id = some t) :
    ∃ thunk own, t.methods[2 * k]? = some thunk ∧ t.methods[2 * k + 1]? = some own ∧
      types.findAccessor t.id op = .ok (if q.name = op.accessorName then thunk else own) := by
  obtain ⟨_, _, -, -, hthunk⟩ := ht.dispatching hk
  obtain ⟨_, _, -, -, hown⟩ := ht.upward hk
  refine ⟨_, _, hthunk, hown, ?_⟩
  obtain ⟨hparams, hname⟩ := hhides
  -- the methods before are the thunks and accessors of operations that are listed before
  have hbefore (j : Nat) (hj : j < 2 * k) (hlt : j < t.methods.length) :
      (t.methods[j].name == op.accessorName && t.methods[j].params == op.params) = false := by
    obtain ⟨r, hr, hmethod⟩ := ht.getElem_methods hlt
    have hnot := hfirst (j / 2) r (by omega) hr
    rw [Bool.and_eq_false_imp]
    intro heq
    rw [beq_iff_eq] at heq
    rw [beq_eq_false_iff_ne]
    intro hsame
    rcases hmethod with ⟨-, hslot, -⟩ | ⟨-, hn, hp⟩
    · obtain ⟨hn, -, hp⟩ := Slot.mk.inj hslot
      exact hnot ⟨hp.symm.trans hsame, .inl (hn.symm.trans heq)⟩
    · exact hnot ⟨hp.symm.trans hsame, .inr (hn.symm.trans heq)⟩
  refine TypeTable.findAccessor_of_find? hlookup ?_
  rw [List.find?_eq_some_iff_getElem]
  -- the thunk comes before the accessor, so it is found if it has the name itself
  by_cases hthis : q.name = op.accessorName
  · rw [if_pos hthis]
    obtain ⟨hlt, hget⟩ := List.getElem?_eq_some_iff.1 hthunk
    refine ⟨?_, 2 * k, hlt, hget, fun j hj => ?_⟩
    · rw [hthis, hparams, beq_self_eq_true, beq_self_eq_true, Bool.and_self]
    · rw [hbefore j hj (Nat.lt_trans hj hlt), Bool.not_false]
  · rw [if_neg hthis]
    obtain ⟨hlt, hget⟩ := List.getElem?_eq_some_iff.1 hown
    refine ⟨?_, 2 * k + 1, hlt, hget, fun j hj => ?_⟩
    · rw [hparams, beq_self_eq_true, Bool.and_true, beq_iff_eq]
      exact hname.resolve_left hthis
    · rcases Nat.lt_succ_iff_lt_or_eq.1 hj with hj | rfl
      · rw [hbefore j hj (Nat.lt_trans (Nat.lt_succ_of_lt hj) hlt), Bool.not_false]
      · rw [(List.getElem?_eq_some_iff.1 hthunk).2, beq_false_of_ne hthis, Bool.false_and, Bool.not_false]

/-- The accessor that is found for an operation is the one that was made for it, if no operation that is
listed before stands in its way. -/
theorem findAccessor_own (ht : e.Proxy w₀ bridge base operations requested t)
    (hop : operations[i]? = some op) (hown : t.methods[2 * i + 1]? = some own) {types : TypeTable}
    (hlookup : types.lookup? t.id = some t)
    (hfirst : ∀ j q, j < i → operations[j]? = some q → ¬ q.Hides op) :
    types.findAccessor t.id op = .ok own := by
  obtain ⟨_, found, -, hfound, hfind⟩ :=
    ht.findAccessor_of_first hop ⟨rfl, .inr rfl⟩ hfirst hlookup
  rw [hown] at hfound
  cases hfound
  rw [hfind, if_neg op.name_ne_accessorName]

/-- The accessor that is found for an operation is the one that was made for it, if no other operation of
the table with the same parameters has an accessor of that name or is itself of that name. -/
theorem findAccessor_eq (ht : e.Proxy w₀ bridge base operations requested t)
    (hop : operations[i]? = some op) (hown : t.methods[2 * i + 1]? = some own) {types : TypeTable}
    (hlookup : types.lookup? t.id = some t)
    (hnames : ∀ {j : Nat} {k : Method}, operations[j]? = some k → k.params = op.params →
      k.name ≠ Naming.accessor op.name op.returns ∧
      (Naming.accessor k.name k.returns = Naming.accessor op.name op.returns → j = i)) :
    types.findAccessor t.id op = .ok own := by
  refine ht.findAccessor_own hop hown hlookup fun j q hj hq hhides => ?_
  obtain ⟨hname, haccessor⟩ := hnames hq hhides.1
  exact Nat.ne_of_lt hj (haccessor (hhides.2.resolve_left hname))

/-- What an operation overrides comes to its host side, on the arguments as they were before they were
boxed. -/
theorem comesTo_overridden (ht : e.Proxy w₀ bridge base operations requested t)
    (hop : operations[i]? = some op) (hown : t.methods[2 * i + 1]? = some own) {w : World}
    (hlookup : w.types.lookup? t.id = some t) {p : PlatformId}
    (hsound : (w.platform p).accessors.Sound w.types)
    (hfound : w.types.findAccessor t.id op = .ok own) {this : ObjectRef} (hcls : this.cls = t.id)
    {args : List Value} (haccepts : List.Forall₂ (fun t v => w.types.accepts t v = true) op.params args)
    {steps : Nat} (hsteps : op.params.length + 3 ≤ steps) (depth : Nat) :
    ComesTo w ((exec steps (depth + 1)).overridden p this op (args.map Value.box))
      (Layer.hostSide (exec steps depth) op this args (Layer.superTarget? w₀.types bridge.id op))
      fun _ v => .ok (if op.returns.isVoid then .void else v) := by
  have hbelow : t ∈ w.types.lineage this.cls := hcls ▸ TypeTable.mem_lineage hlookup
  rw [← hcls] at hfound
  refine Runner.comesTo_overridden hsound hfound haccepts fun w' haside => ?_
  exact ht.comesTo_accessor hop hown (haside.types ▸ hbelow) haccepts.length_eq.symm hsteps depth

end Emitter.Proxy

end Interpose
