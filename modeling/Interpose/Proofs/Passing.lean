import Interpose.Proofs.Overloads
import Interpose.Proofs.Overrides

/-!
# Arguments that are passed on

A call by name passes its arguments on as they are, and finds what it reaches as if they were in their boxes. A thunk
puts only those into a box that are for primitives, and only if they are in none. So the dispatcher gets the boxed
arguments if the parameters accept them as they stand. If not, an argument in its box that is for a primitive raises an
error before the dispatcher is reached, and any other primitive reaches it as it is.
-/

namespace Interpose

open Interpose.Action (ComesTo)

/-! ## Packing each argument -/

namespace TypeTable

variable {types : TypeTable} {t : ValueType} {v u : Value} {params : List ValueType} {args given : List Value}
  {e : HostError}

/-- Arguments can be passed if each of them can be passed for its parameter. -/
theorem acceptsArgs_iff :
    types.acceptsArgs params args = true ↔ List.Forall₂ (fun t v => types.acceptsArgument t v = true) params args := by
  rw [acceptsArgs, Bool.and_eq_true, beq_iff_eq, List.all_eq_true, List.forall₂_iff_zip]
  exact and_congr_right fun _ => ⟨fun h _ _ hmem => h (_, _) hmem, fun h pair hmem => h hmem⟩

/-- What cannot be passed on for a primitive is of another kind, or in a box. -/
theorem mismatch_of_packOne (h : types.packOne t v = .error e) :
    ∃ kind, t.kind? = some kind ∧ (∀ p : Primitive, v = .prim p → p.kind ≠ kind) ∧
      e = types.mismatch kind.keyword v := by
  rw [packOne] at h
  cases hkind : t.kind? with
  | none =>
      rw [hkind] at h
      cases h
  | some kind =>
      rw [hkind] at h
      refine ⟨kind, rfl, ?_⟩
      cases v with
      | prim p =>
          dsimp only at h
          split at h
          · cases h
          · rename_i hne
            cases h
            exact ⟨fun q hq hkind => hne ((Value.prim.inj hq) ▸ hkind), rfl⟩
      | _ =>
          cases h
          refine ⟨fun q hq => ?_, rfl⟩
          cases hq

theorem packEach_cons_eq_error : types.packEach (t :: params) (v :: args) = .error e ↔
    types.packOne t v = .error e ∨ ∃ u, types.packOne t v = .ok u ∧ types.packEach params args = .error e := by
  rw [packEach]
  cases types.packOne t v with
  | error e' => simp [bind, Except.bind]
  | ok u =>
      cases types.packEach params args <;> simp [bind, Except.bind, pure, Except.pure]

/-- What can be passed is passed on in its box exactly if a slot of the type accepts it as it stands. -/
theorem packOne_eq_box_iff (h : types.acceptsArgument t v = true) :
    types.packOne t v = .ok v.box ↔ types.accepts t v = true := by
  refine ⟨fun hpack => ?_, packOne_of_accepts⟩
  cases hkind : t.kind? with
  | some kind =>
      obtain ⟨p, rfl, hp, -⟩ := prim_of_packOne hkind hpack
      cases t <;> cases hkind
      exact beq_iff_eq.2 hp
  | none =>
      rw [packOne_of_none hkind, Except.ok.injEq] at hpack
      cases t with
      | primitive _ => cases hkind
      | _ =>
          rw [hpack]
          exact h

/-- What can be passed cannot be passed on exactly if it is in its box and for a primitive. -/
theorem packOne_eq_error_iff (h : types.acceptsArgument t v = true) :
    (∃ e, types.packOne t v = .error e) ↔ t.kind?.isSome = true ∧ ∃ p, v = .boxed p := by
  constructor
  · rintro ⟨e, hpack⟩
    obtain ⟨kind, hkind, hother, -⟩ := mismatch_of_packOne hpack
    refine ⟨by rw [hkind]; rfl, ?_⟩
    cases t <;> cases hkind
    cases v with
    | boxed p => exact ⟨p, rfl⟩
    | prim p => exact (hother p rfl (beq_iff_eq.1 h)).elim
    | _ => cases h
  · rintro ⟨hsome, p, rfl⟩
    obtain ⟨kind, hkind⟩ := Option.isSome_iff_exists.1 hsome
    exact ⟨_, by rw [packOne, hkind]⟩

/-- Arguments that can be passed are passed on in their boxes exactly if the parameters accept them as they stand. -/
theorem packEach_eq_box_iff (h : types.acceptsArgs params args = true) :
    types.packEach params args = .ok (args.map Value.box) ↔
      List.Forall₂ (fun t v => types.accepts t v = true) params args := by
  induction acceptsArgs_iff.1 h with
  | nil => exact ⟨fun _ => .nil, fun _ => rfl⟩
  | cons hv hrest ih =>
      rw [List.map_cons, packEach_cons_eq_ok, List.forall₂_cons, ← packOne_eq_box_iff hv,
        ← ih (acceptsArgs_iff.2 hrest)]
      constructor
      · rintro ⟨u, hu, rest, hpack, heq⟩
        cases heq
        exact ⟨hu, hpack⟩
      · exact fun ⟨hu, hpack⟩ => ⟨_, hu, _, hpack, rfl⟩

/-- Arguments that can be passed cannot be passed on exactly if one of them is in its box and for a primitive. -/
theorem packEach_eq_error_iff (h : types.acceptsArgs params args = true) :
    (∃ e, types.packEach params args = .error e) ↔
      ∃ (j : Nat) (t : ValueType) (p : Primitive),
        params[j]? = some t ∧ t.kind?.isSome = true ∧ args[j]? = some (.boxed p) := by
  induction acceptsArgs_iff.1 h with
  | nil =>
      refine ⟨?_, ?_⟩
      · rintro ⟨e, he⟩
        cases he
      · rintro ⟨j, t, p, ht, -⟩
        cases ht
  | @cons t v params args hv hrest ih =>
      have hfirst := packOne_eq_error_iff hv
      have hothers := ih (acceptsArgs_iff.2 hrest)
      constructor
      · rintro ⟨e, he⟩
        rcases packEach_cons_eq_error.1 he with he | ⟨u, -, he⟩
        · obtain ⟨hsome, p, rfl⟩ := hfirst.1 ⟨e, he⟩
          exact ⟨0, t, p, rfl, hsome, rfl⟩
        · obtain ⟨j, s, p, hs, hsome, hp⟩ := hothers.1 ⟨e, he⟩
          exact ⟨j + 1, s, p, hs, hsome, hp⟩
      · rintro ⟨j, s, p, hs, hsome, hp⟩
        cases j with
        | zero =>
            cases hs
            cases hp
            obtain ⟨e, he⟩ := hfirst.2 ⟨hsome, p, rfl⟩
            exact ⟨e, packEach_cons_eq_error.2 (.inl he)⟩
        | succ j =>
            obtain ⟨e, he⟩ := hothers.2 ⟨j, s, p, hs, hsome, hp⟩
            -- the arguments before it may be the first that cannot be passed on
            cases hpack : types.packOne t v with
            | error e' => exact ⟨e', packEach_cons_eq_error.2 (.inl hpack)⟩
            | ok u => exact ⟨e, packEach_cons_eq_error.2 (.inr ⟨u, hpack, he⟩)⟩

end TypeTable

/-! ## Thunks of a type with a dispatcher -/

namespace Layer

open CodeBuilder (Within)
open CompiledBody (Ends)

variable {unit : CompiledBody} {owner : TypeId} {code : Code} {place : Nat → Nat} {run : Runner} {b : CodeBuilder}
  {w : World} {op : Method} {this : ObjectRef} {args : List Value} {name : String} {index : Nat}
  {target : Option Method} {e : HostError}

/-- Packing an argument that cannot be passed on raises. -/
theorem ends_packArgument_of_error (hrealizes : unit.Realizes owner code place) {locals : Array Value}
    {rest : List Value} {i : Nat} {t : ValueType} {a v : Value} (h : (packArgument b i t).Within code)
    (hsmall : i + 1 < 0x10000) (hv : locals[i + 1]? = some v) (hpack : w.types.packOne t v = .error e) :
    unit.Ends run code place b.instrs.size ⟨locals, a :: rest⟩ w (.error (.raised e), w) := by
  obtain ⟨kind, hkind, hother, rfl⟩ := TypeTable.mismatch_of_packOne hpack
  rw [packArgument_of_some hkind] at h
  exact ends_loadArgument hrealizes (Within.of_emit h.of_emit) hsmall hv
    (.box_mismatch hrealizes h.of_emit rfl hother)

/-- Packing arguments that cannot be passed on raises, with those before packed. -/
theorem ends_packArguments_of_error (hrealizes : unit.Realizes owner code place) {locals : Array Value}
    {rest : List Value} {i : Nat} {params : List ValueType} {items : List Value}
    (hlength : params.length = args.length) (hpack : w.types.packEach params args = .error e)
    (hlocals : ∀ j v, args[j]? = some v → locals[i + j + 1]? = some v) (hitems : items.length = i + args.length)
    (hsmall : i + args.length < 0x10000) (h : (packArguments b i params).Within code) :
    ∃ items', unit.Ends run code place b.instrs.size ⟨locals, .array ⟨w.arrays.size⟩ :: rest⟩ (withArray w items)
      (.error (.raised e), withArray w items') := by
  induction params generalizing b i items args with
  | nil =>
      obtain rfl := List.length_eq_zero_iff.1 hlength.symm
      cases hpack
  | cons t params ih =>
      obtain ⟨v, args, rfl⟩ : ∃ v rest, args = v :: rest :=
        List.exists_cons_of_ne_nil (List.ne_nil_of_length_eq_add_one hlength.symm)
      rw [List.length_cons] at hsmall hitems
      rw [packArguments] at h
      have hargument : (packArgument b i t).Within code := h.of_continues (continues_packArguments _ _ _)
      rcases TypeTable.packEach_cons_eq_error.1 hpack with herror | ⟨u, hu, hleft⟩
      · exact ⟨items, ends_packArgument_of_error (w := withArray w items) hrealizes hargument (by omega)
          (hlocals 0 v rfl) herror⟩
      · have hset : (items.set i u).length = i + 1 + args.length := by
          rw [List.length_set]
          omega
        have hrest (j : Nat) (v : Value) (hv : args[j]? = some v) : locals[i + 1 + j + 1]? = some v := by
          rw [Nat.add_right_comm i 1 j]
          exact hlocals (j + 1) v hv
        obtain ⟨items', hends⟩ := ih (Nat.succ.inj hlength) hleft hrest hset (by omega) h
        exact ⟨items', ends_packArgument hrealizes hargument (by omega) (by omega) (hlocals 0 v rfl) hu hends⟩

/-- With a dispatcher a thunk ends with the error of packing its arguments. -/
theorem ends_refused (hcode : thunkCode name index op target = .ok code)
    (hrealizes : unit.Realizes owner code place) {d : DispatcherId} {t : HostType} {g : Generation}
    (ht : (w.types.lineage owner).find? (fun t => t.generated.any (·.role == .proxy)) = some t)
    (hg : t.generated = some g) {count : Nat} (hindex : index < count)
    (htable : w.arrays[g.table.index]? = some ((Array.range count).map .operation))
    (hlength : op.params.length = args.length) (hpack : w.types.packEach op.params args = .error e)
    (hnumber : 0 ≤ tableIndex index) :
    ∃ items, unit.Ends run code place 3 ⟨(.object this :: args).toArray, [.dispatcher d]⟩ w
      (.error (.raised e), withArray w items) := by
  have hpacked := Within.of_emit (within_thunkCall hcode)
  have hlt := params_lt_of_thunk hcode
  have hitems : (List.replicate op.params.length Value.null).length = 0 + args.length := by
    rw [List.length_replicate]
    omega
  obtain ⟨items, hends⟩ := ends_packArguments_of_error hrealizes hlength hpack (getElem?_arguments this) hitems
    (by omega) hpacked
  exact ⟨items, ends_thunkArray hrealizes (hpacked.of_continues (continues_packArguments _ _ _)) hlt ht hg hindex htable
    hnumber hends⟩

/-- What a thunk does with arguments that cannot be passed on: it has made an array for them. -/
def refused (items : List Value) (e : HostError) : Action Value := do
  let _ ← World.newArray items.toArray
  Action.raise e

end Layer

namespace Emitter.Proxy

variable {e : Emitter} {w₀ w : World} {bridge base : HostType} {operations : List Method} {requested : List TypeId}
  {t : HostType} {i : Nat} {op thunk : Method} {this : ObjectRef} {args : List Value} {steps : Nat} {d : DispatcherId}

/-- With a dispatcher, running the thunk of an operation passes the arguments on, or raises why they cannot be. -/
theorem runTask_passing (ht : e.Proxy w₀ bridge base operations requested t) (hop : operations[i]? = some op)
    (hthunk : t.methods[2 * i]? = some thunk) (hi : i < 0x80000000) (hlookup : w.types.lookup? t.id = some t)
    (hbelow : t ∈ w.types.lineage this.cls)
    (htable : w.arrays[w₀.arrays.size]? = some ((Array.range operations.length).map .operation))
    (hd : w.dispatcherOf? t.id = some d) (hlength : op.params.length = args.length)
    (hsteps : 6 * op.params.length + 16 ≤ steps) (run : Runner) :
    (∀ given, w.types.packEach op.params args = .ok given → run.runTask steps (.method thunk this args) w =
      World.holding [.type t.id] (Layer.passedOn run op d i this args given) w) ∧
    ∀ error, w.types.packEach op.params args = .error error → ∃ items,
      run.runTask steps (.method thunk this args) w = World.holding [.type t.id] (Layer.refused items error) w := by
  obtain ⟨code, unit, hcode, hunit, hmethod⟩ := ht.dispatching hop
  rw [hmethod, Option.some.injEq] at hthunk
  have hbody : thunk.body = .compiled unit := hthunk ▸ rfl
  have hparams : args.length = thunk.params.length := hthunk ▸ hlength.symm
  have hrealizes := Layer.realizes_thunk hcode hunit
  have hlocals := Layer.locals_of_thunk hcode
  rw [hlength] at hlocals
  have hdefined := World.isDefined_of_mem_lineage hbelow
  have hfind := ht.find?_lineage hlookup
  have hindex := (List.getElem?_eq_some_iff.1 hop).1
  have hnumber : Layer.tableIndex i = i := Layer.tableIndex_of_lt hi
  have hfits : 0 ≤ Layer.tableIndex i := by omega
  -- what happens behind the opening of the thunk tells what running it does
  have hrun (x : Action Value) (hends : unit.Ends run code (e.backend.place code.instrs.toList) 3
      ⟨(.object this :: args).toArray, [.dispatcher d]⟩ { w with held := [.type t.id] ++ w.held }
      (x { w with held := [.type t.id] ++ w.held })) :
      run.runTask steps (.method thunk this args) w = World.holding [.type t.id] x w := by
    rw [Runner.runTask_compiled hbody hparams]
    refine Layer.run_of_ends hrealizes hlocals hdefined (Layer.ends_thunkOpening
      (w := { w with held := [.type t.id] ++ w.held }) hcode hrealizes hfind (fun d' hd' => ?_) fun hnone => ?_)
      (Nat.le_trans (Layer.size_thunk_le hcode) hsteps)
    · obtain rfl : d = d' := Option.some.inj (hd.symm.trans hd')
      exact hends
    · cases hd.symm.trans hnone
  refine ⟨fun given hpack => ?_, fun error hpack => ?_⟩
  · refine hrun _ ?_
    have hpassed : Layer.passedOn run op d i this args given =
        Layer.passedOn run op d (Layer.tableIndex i).toNat this args given := by
      rw [hnumber, Int.toNat_natCast]
    rw [hpassed]
    exact Layer.ends_passedOn (w := { w with held := [.type t.id] ++ w.held }) hcode hrealizes hfind ht.generated
      hindex htable hlength hpack hfits
  · obtain ⟨items, hends⟩ := Layer.ends_refused (w := { w with held := [.type t.id] ++ w.held }) hcode hrealizes hfind
      ht.generated hindex htable hlength hpack hfits
    exact ⟨items, hrun (Layer.refused items error) hends⟩

end Emitter.Proxy

/-! ## Calls by name -/

namespace World

variable {w : World} {base t : HostType} {interfaces properties : List TypeId} {d : DispatcherId} {n : Nat}
  {op thunk : Method} {o : ObjectRef} {name : String} {args : List Value} {steps : Nat}

/-- **Passing arguments on.** Take a subtype with a dispatcher whose table is kept, and a call by name on an object of
it or of a class below that finds the thunk of an operation whose parameters take the arguments, in boxes or not. If
the arguments can be passed on, the call comes to that of the dispatcher with the receiver, the number of the operation
and the arguments as they are passed on. If they cannot, it raises why before the dispatcher is reached. All of them
are passed on in boxes exactly if the parameters accept them as they stand, and they cannot be passed on exactly if one
of them is in its box and for a primitive. -/
theorem call_passes (ht : w.HasSubtype base interfaces properties t) (htable : w.KeepsTable t)
    (hd : w.dispatcherOf? t.id = some d) (hop : (w.types.proxy? t.id).bind (·.operations[n]?) = some op)
    (hn : n < 0x80000000) (hthunk : t.methods[2 * n]? = some thunk) (hbelow : t ∈ w.types.lineage o.cls)
    (hreached : w.types.findMethodFor? o.cls name args = some thunk)
    (haccepts : w.types.acceptsArgs op.params args = true) (hsteps : 6 * op.params.length + 16 ≤ steps)
    (depth : Nat) :
    (∀ given, w.types.packEach op.params args = .ok given →
      ComesTo w ((exec steps (depth + 1)).call o name args) (exec steps depth (.dispatch d o n given))
        fun types v => types.unboxOrCast op.returns v) ∧
    (∀ e, w.types.packEach op.params args = .error e → ∃ items,
      (exec steps (depth + 1)).call o name args w = (.error (.raised e), Layer.withArray w items)) ∧
    (w.types.packEach op.params args = .ok (args.map Value.box) ↔
      List.Forall₂ (fun t v => w.types.accepts t v = true) op.params args) ∧
    ((∃ e, w.types.packEach op.params args = .error e) ↔
      ∃ (j : Nat) (t : ValueType) (p : Primitive),
        op.params[j]? = some t ∧ t.kind?.isSome = true ∧ args[j]? = some (.boxed p)) := by
  obtain ⟨e, older, w₀, b, hs⟩ := ht.stands
  have hlength := (TypeTable.acceptsArgs_iff.1 haccepts).length_eq
  have hcall := (exec steps (depth + 1)).call_of_found hreached
  obtain ⟨hpassed, hrefused⟩ := hs.proxy.runTask_passing (w := { w with held := Task.holders _ ++ w.held })
    (hs.getElem?_operations hop) hthunk hn hs.lookup hbelow (htable _ hs.proxy.generated) hd hlength hsteps
    (exec steps depth)
  refine ⟨fun given hpack => .of_eq hcall ?_, fun error hpack => ?_, TypeTable.packEach_eq_box_iff haccepts,
    TypeTable.packEach_eq_error_iff haccepts⟩
  · refine .holding (.of_eq (hpassed given hpack) (.holding ?_))
    refine .after rfl (.push _ _) rfl (.convert (f := fun _ v => .ok v) (.holding (.refl ?_)))
    exact held_exec steps depth _ _
  · obtain ⟨items, hraised⟩ := hrefused error hpack
    exact ⟨items, hcall.trans (Action.holding_congr hraised)⟩

end World

/-! ## A dispatcher that tells boxes -/

/-- An operation of a class that weighs something. -/
def weighing (name : String) (t : ValueType) : Method :=
  ⟨name, [t], .reference stringName, .public, "Gauge", ⟨2⟩, .native fun _ _ => .done .null⟩

def weighNumber : Method := weighing "weigh" (.primitive .int)

def weighAny : Method := weighing "weighAny" .object

/-- A class that weighs numbers and anything. -/
def scale : HostType := gauge [weighNumber, weighAny]

/-- A dispatcher that tells whether the first argument is in a box. -/
def boxTeller : Dispatcher :=
  .custom fun _ _ args => .done (match args.head? with
    | some (.prim _) => .str "raw"
    | some (.boxed _) => .str "boxed"
    | _ => .null)

/-- The world with the class and the dispatcher. -/
def scaleWorld : World :=
  { World.initial {} with
    types := scale :: TypeTable.initial
    dispatchers := #[.routing .first, boxTeller] }

/-- An object of the subtype. -/
def scaleObject : ObjectRef := ⟨0, ⟨4⟩⟩

/-- What a call by name on the object finds: the type that declares it, and its slot. -/
def World.foundOnScale (w : World) (name : String) (v : Value) : Option (TypeId × Slot) :=
  (w.types.findMethodFor? scaleObject.cls name [v]).map fun m => (m.declaringId, m.slot)

/-- Whether the operations of the subtype are that of the capability and those of the class, a number in no box
reaches the dispatcher as it is where anything is asked for, and one in its box is refused where a number is. -/
def World.TellsBoxes (w : World) : Prop :=
  (w.types.proxy? ⟨4⟩).map (fun g => g.operations.map fun op => (op.slot, op.isVirtual)) =
    some [(capabilitySlot, true), (weighNumber.slot, true), (weighAny.slot, true)] ∧
  w.dispatcherOf? scaleObject.cls = some ⟨1⟩ ∧
  w.foundOnScale "weighAny" (.prim (.int 7)) = some (⟨4⟩, weighAny.slot) ∧
  ((exec 22 2).call scaleObject "weighAny" [.prim (.int 7)] w).1 = .ok (.str "raw") ∧
  w.foundOnScale "weigh" (.boxed (.int 7)) = some (⟨4⟩, weighNumber.slot) ∧
  ((exec 22 2).call scaleObject "weigh" [.boxed (.int 7)] w).1 =
    .error (.raised (.typeMismatch "int" "host.lang.Integer"))

instance : DecidablePred World.TellsBoxes := fun _ => inferInstanceAs (Decidable (_ ∧ _))

/-- A subtype of the class with the dispatcher is generated. -/
theorem exists_generate_scale : ∃ w,
    World.generate ⟨.weave, false⟩ scale.id [] [] .system (some ⟨1⟩) scaleWorld = (.ok ⟨4⟩, w) ∧ w.TellsBoxes := by
  apply World.exists_generate (P := World.TellsBoxes)
  · rfl
  · rfl
  · rw [TypeTable.harvestAbstract, TypeTable.harvest, TypeTable.interfaceList, TypeTable.extendFound]
    rfl
  · rfl
  · exact TypeTable.harvest_singleton rfl rfl rfl
  · apply exists_eq_ok_of_decide (P := fun w : World => World.TellsBoxes { w with installed := _ })
    decide +kernel
  · rfl

/-- A number in no box reaches the dispatcher in one where a number is asked for. -/
theorem World.call_passes_scale : ∃ w,
    World.generate ⟨.weave, false⟩ scale.id [] [] .system (some ⟨1⟩) scaleWorld = (.ok ⟨4⟩, w) ∧
    ((exec 22 2).call scaleObject "weigh" [.prim (.int 7)] w).1 = .ok (.str "boxed") := by
  obtain ⟨w, hgenerate, hlists, -⟩ := exists_generate_scale
  refine ⟨w, hgenerate, ?_⟩
  have hempty (i : TypeId) : i ∈ ([] : List TypeId) → i.index < scaleWorld.types.length := nofun
  obtain ⟨t, hid, ht, hlookup, htable, hd⟩ :=
    World.exists_hasSubtype (numbered_gauge _) ⟨[_], rfl⟩ rfl hempty hempty hgenerate
  have hdispatchers : w.dispatchers = scaleWorld.dispatchers := by
    have hbase : scaleWorld.types.lookup? scale.id = some scale := rfl
    obtain ⟨_, _, _, _, -, -, rfl, rfl⟩ := World.generate_eq_ok hbase hgenerate
    rfl
  -- the operations of the subtype, of which the second is that for numbers
  rw [hid] at hlists
  obtain ⟨g, hg, hlists⟩ := Option.map_eq_some_iff.1 hlists
  obtain ⟨a, rest, hall, ha, hrest⟩ := List.map_eq_cons_iff.1 hlists
  obtain ⟨b, rest, rfl, hb, hrest⟩ := List.map_eq_cons_iff.1 hrest
  obtain ⟨c, rest, rfl, hc, hrest⟩ := List.map_eq_cons_iff.1 hrest
  obtain rfl := List.map_eq_nil_iff.1 hrest
  simp only [Prod.mk.injEq] at ha hb hc
  obtain ⟨haname, hareturns, -⟩ := Slot.mk.inj ha.1
  obtain ⟨hbname, hbreturns, hbparams⟩ := Slot.mk.inj hb.1
  obtain ⟨hcname, hcreturns, -⟩ := Slot.mk.inj hc.1
  have hnames : ∀ op ∈ [a, b, c], Naming.accessor op.name op.returns ≠ "weigh" := by
    intro op hop
    simp only [List.mem_cons, List.not_mem_nil, or_false] at hop
    rcases hop with rfl | rfl | rfl
    · rw [haname, hareturns]
      decide +kernel
    · rw [hbname, hbreturns]
      decide +kernel
    · rw [hcname, hcreturns]
      decide +kernel
  have hfirst : [a, b, c].find? (w.types.reachedWith "weigh" [.prim (.int 7)]) = some b := by
    have hskip : w.types.reachedWith "weigh" [.prim (.int 7)] a = false := by
      rw [TypeTable.reachedWith, TypeTable.answersWith, haname]
      exact Bool.and_false _
    have htake : w.types.reachedWith "weigh" [.prim (.int 7)] b = true := by
      rw [TypeTable.reachedWith, TypeTable.answersWith, hb.2, hbname, hbparams]
      rfl
    rw [List.find?_cons_of_neg (Bool.eq_false_iff.1 hskip), List.find?_cons_of_pos htake]
  have hoperations : (w.types.proxy? t.id).map (·.operations) = some [a, b, c] := by
    rw [hg]
    exact congrArg some hall
  obtain ⟨e, older, w₀, layer, hs⟩ := ht.stands
  obtain ⟨n, thunk, hn, hthunk, hreached⟩ :=
    hs.find?_methodsOf_of_some hoperations (.reachedWith hnames (by decide)) hfirst
  have hop : (w.types.proxy? t.id).bind (·.operations[n]?) = some b := by
    rw [hg, Option.bind_some, hall, hn]
  have hlt : n < 0x80000000 := Nat.lt_of_lt_of_le (List.getElem?_eq_some_iff.1 hn).1 (by decide : 3 ≤ 0x80000000)
  obtain ⟨rest, hlineage⟩ := TypeTable.lineage_of_lookup? hlookup
  have hbelow : t ∈ w.types.lineage t.id := hlineage ▸ List.mem_cons_self
  have haccepts : List.Forall₂ (fun t v => w.types.accepts t v = true) b.params [.prim (.int 7)] :=
    hbparams ▸ .cons rfl .nil
  have hsteps : 6 * b.params.length + 16 ≤ 22 := by
    rw [hbparams]
    decide
  obtain ⟨hpassed, -⟩ := World.call_passes (o := ⟨0, t.id⟩) ht htable (hd ⟨1⟩ rfl) hop hlt hthunk hbelow
    (TypeTable.findMethodFor?_of_find? hreached) (TypeTable.acceptsArgs_of_accepts haccepts)
    hsteps 1
  have hcomes := hpassed _ (TypeTable.packEach_of_accepts haccepts)
  rw [scaleObject, hid]
  refine hcomes.fst_eq_ok (v := .str "boxed") (fun w' haside => ?_) fun types => ?_
  · have hteller : w'.dispatchers = #[.routing .first, boxTeller] := haside.dispatchers.trans hdispatchers
    simp only [exec, World.holding, Action.finally_, Runner.runTask]
    rw [Action.bind_apply_ok (Action.get_apply _)]
    simp only [hteller]
    rfl
  · rw [hbreturns]
    rfl

/-- Numbers that can be passed in a box or in none: where anything is asked for, one in no box reaches the dispatcher as
it is, and where a number is asked for, one in its box raises an error before the dispatcher is reached. -/
theorem World.call_passes_differs : ∃ w,
    World.generate ⟨.weave, false⟩ scale.id [] [] .system (some ⟨1⟩) scaleWorld = (.ok ⟨4⟩, w) ∧
    w.dispatcherOf? scaleObject.cls = some ⟨1⟩ ∧
    w.foundOnScale "weighAny" (.prim (.int 7)) = some (⟨4⟩, weighAny.slot) ∧
    w.types.acceptsArgs weighAny.params [.prim (.int 7)] = true ∧
    ((exec 22 2).call scaleObject "weighAny" [.prim (.int 7)] w).1 = .ok (.str "raw") ∧
    w.foundOnScale "weigh" (.boxed (.int 7)) = some (⟨4⟩, weighNumber.slot) ∧
    w.types.acceptsArgs weighNumber.params [.boxed (.int 7)] = true ∧
    ((exec 22 2).call scaleObject "weigh" [.boxed (.int 7)] w).1 =
      .error (.raised (.typeMismatch "int" "host.lang.Integer")) := by
  obtain ⟨w, hgenerate, -, hd, hany, hraw, hnumber, hrefused⟩ := exists_generate_scale
  exact ⟨w, hgenerate, hd, hany, rfl, hraw, hnumber, rfl, hrefused⟩

end Interpose
