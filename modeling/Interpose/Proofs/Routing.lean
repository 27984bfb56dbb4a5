import Interpose.Proofs.Accessors
import Interpose.Proofs.Hierarchies
import Interpose.Proofs.Resolution
import Interpose.Proofs.Routines

/-!
# Routed calls

What a call of an operation comes to when the dispatcher of its proxy is that of a platform. While the
receiver is under construction or bound to nothing the host side of the operation answers. Otherwise
the script type of the script object is asked by name and arguments, and what it names answers.
-/

namespace Interpose

open Interpose.Action (ComesTo LetsGo)

/-! ## Proxies in a world -/

/-- A type answers calls of the slots that it declares itself. -/
theorem TypeTable.findVirtual?_of_mem {types : TypeTable} {id : TypeId} {t : HostType}
    (hlookup : types.lookup? id = some t) (hslots : (t.methods.map (·.slot)).Nodup) {m : Method}
    (hm : m ∈ t.methods) (hvirtual : m.isVirtual = true) : types.findVirtual? id m.slot = some m := by
  obtain ⟨rest, hlineage⟩ := lineage_of_lookup? hlookup
  obtain ⟨n, hmem, hn, hreached⟩ := exists_find?_of_mem (q := fun n => n.isVirtual && n.occupies m.slot) hm
    (Method.and_occupies_iff.2 ⟨hvirtual, rfl⟩)
  rw [findVirtual?, methodsOf, hlineage, List.flatMap_cons, List.append_assoc, List.find?_append, hn,
    Option.some_or, List.inj_on_of_nodup_map hslots hmem hm (Method.and_occupies_iff.1 hreached).2]

/-- Whether the calls of the operations of a proxy go to a platform: the proxy is there with the array
of its operation numbers, and with the dispatcher of the platform, which remembers no wrong
accessors. -/
structure World.Routes (w : World) (p : PlatformId) (t : HostType) : Prop where
  lookup : w.types.lookup? t.id = some t
  table : ∀ g, t.generated = some g →
    w.arrays[g.table.index]? = some ((Array.range g.operations.length).map .operation)
  dispatcher : ∃ d, w.dispatcherOf? t.id = some d ∧ w.dispatchers[d.index]? = some (.routing p)
  accessors : (w.platform p).accessors.Sound w.types

theorem World.Routes.aside {w w' : World} {p : PlatformId} {t : HostType} (h : w.Routes p t)
    (haside : w.Aside w') : w'.Routes p t where
  lookup := haside.types ▸ h.lookup
  table g hg := haside.arrays _ _ (h.table g hg)
  dispatcher := by
    rw [haside.dispatcherOf?, haside.dispatchers]
    exact h.dispatcher
  accessors := haside.sound h.accessors

/-- An overload that is called lets go of all that it held. -/
theorem letsGo_callOverload (steps depth : Nat) (p : PlatformId) (this : ObjectRef) (source : Method)
    (args : List Value) : LetsGo ((exec steps depth).callOverload p this source args) :=
  (Runner.routine_callOverload p this source args).letsGo (held_exec steps depth)

/-- The answer to an intercepted call lets go of all that was held for it. -/
theorem letsGo_dispatchRouted (steps depth : Nat) (p : PlatformId) (this : ObjectRef) (number : Nat)
    (args : List Value) : LetsGo ((exec steps depth).dispatchRouted p this number args) :=
  (Runner.routine_dispatchRouted p this number args).letsGo (held_exec steps depth)

namespace Emitter.Proxy

variable {e : Emitter} {w₀ w : World} {bridge base : HostType} {operations : List Method}
  {requested : List TypeId} {t : HostType} {i : Nat} {op own thunk : Method} {p : PlatformId}
  {this : ObjectRef} {args : List Value} {steps : Nat} {y : Action Value}
  {f : TypeTable → Value → Except HostError Value}

/-- The generation record that is read on objects of a proxy is its own. -/
theorem proxy?_eq (ht : e.Proxy w₀ bridge base operations requested t) {types : TypeTable}
    (hlookup : types.lookup? t.id = some t) :
    types.proxy? t.id = some ⟨.proxy, base.id, operations, requested, ⟨w₀.arrays.size⟩⟩ := by
  obtain ⟨rest, hlineage⟩ := TypeTable.lineage_of_lookup? hlookup
  rw [TypeTable.proxy?, hlineage, List.filterMap_cons_some ht.generated, List.find?_cons]
  rfl

/-! ## Thunks -/

/-- A call of a slot that calls can reach runs the thunk of its operation. -/
theorem invoke_apply (ht : e.Proxy w₀ bridge base operations requested t)
    (hop : operations[i]? = some op) (hvirtual : op.isVirtual = true)
    (hlookup : w.types.lookup? t.id = some t) (hcls : this.cls = t.id) (run : Runner) :
    ∃ thunk, t.methods[2 * i]? = some thunk ∧
      ∀ args, run.invoke this op.slot args w = run (.method thunk this args) w := by
  obtain ⟨thunk, code, hthunk, hslot, hmodifiers, -⟩ := ht.runTask_thunk hop
  have hreached : thunk.isVirtual = true := (Layer.isVirtual_of_modifiers hmodifiers).trans hvirtual
  have hfound := TypeTable.findVirtual?_of_mem hlookup ht.slots (List.mem_of_getElem? hthunk) hreached
  refine ⟨thunk, hthunk, fun args => ?_⟩
  rw [Runner.invoke, Action.bind_apply_ok (Action.get_apply w), hcls, ← hslot, hfound]

/-- With the dispatcher of a platform, a thunk comes to what routing its number with the boxed arguments
comes to, on any object whose class is the proxy or below it. -/
theorem comesTo_thunk (ht : e.Proxy w₀ bridge base operations requested t)
    (hop : operations[i]? = some op) (hthunk : t.methods[2 * i]? = some thunk) (hi : i < 0x80000000)
    (hroutes : w.Routes p t) (hbelow : t ∈ w.types.lineage this.cls)
    (haccepts : List.Forall₂ (fun t v => w.types.accepts t v = true) op.params args)
    (hsteps : 6 * op.params.length + 16 ≤ steps) (depth : Nat)
    (h : ∀ w', w.Aside w' →
      ComesTo w' ((exec steps (depth + 1)).dispatchRouted p this i (args.map Value.box)) y f) :
    ComesTo w (exec steps (depth + 3) (.method thunk this args)) y
      fun types v => f types v >>= types.unboxOrCast op.returns := by
  obtain ⟨_, code, hmethod, -, -, hcode, hrun⟩ := ht.runTask_thunk hop
  rw [hmethod] at hthunk
  cases hthunk
  obtain ⟨d, hd, hdispatcher⟩ := hroutes.dispatcher
  have hsize := Nat.le_trans (Layer.size_thunk_le hcode) hsteps
  refine .holding (.of_eq (hrun _ steps this args _ hsize hroutes.lookup ⟨t, hbelow, rfl⟩
    (hroutes.table _ ht.generated) haccepts) (.holding (.of_eq (Layer.thunkMeaning_of_some hd) ?_)))
  rw [Layer.dispatched_of_lt hi]
  -- what is left aside is the array of the arguments and what is held on the way
  refine .after rfl (.push _ _) rfl (.convert (.holding (.holding ?_)))
  refine .of_eq ?_ (h _ ?_)
  · rw [Runner.runTask, Action.bind_apply_ok (Action.get_apply _)]
    simp only [hdispatcher]
  · exact ((((World.Aside.holding w _).trans (.holding _ _)).trans (.push _ _)).trans
      (.holding _ _)).trans (.holding _ _)

/-- Without a dispatcher, a thunk comes to the host side of its operation. -/
theorem comesTo_thunk_of_none (ht : e.Proxy w₀ bridge base operations requested t)
    (hop : operations[i]? = some op) (hthunk : t.methods[2 * i]? = some thunk)
    (hlookup : w.types.lookup? t.id = some t) (hnone : w.dispatcherOf? t.id = none)
    (hbelow : t ∈ w.types.lineage this.cls) (hlength : args.length = op.params.length)
    (hsteps : 6 * op.params.length + 16 ≤ steps) (depth : Nat) :
    ComesTo w (exec steps (depth + 1) (.method thunk this args))
      (Layer.hostSide (exec steps depth) op this args (Layer.superTarget? w₀.types bridge.id op))
      fun _ v => .ok (if op.returns.isVoid then .void else v) := by
  obtain ⟨code, unit, hcode, hunit, hmethod⟩ := ht.dispatching hop
  rw [hmethod, Option.some.injEq] at hthunk
  have hbody : thunk.body = .compiled unit := hthunk ▸ rfl
  have hparams : args.length = thunk.params.length := hthunk ▸ hlength
  have hrealizes := Layer.realizes_thunk hcode hunit
  have hlocals := Layer.locals_of_thunk hcode
  rw [← hlength] at hlocals
  have hrun (w : World) (hlookup : w.types.lookup? t.id = some t) (hnone : w.dispatcherOf? t.id = none)
      (hbelow : t ∈ w.types.lineage this.cls) : (exec steps depth).runTask steps (.method thunk this args) w =
      World.holding [.type t.id] (Layer.wentUp (exec steps depth) op this args
        (Layer.superTarget? w₀.types bridge.id op)) w := by
    rw [Runner.runTask_compiled hbody hparams]
    refine Layer.run_of_ends hrealizes hlocals (World.isDefined_of_mem_lineage hbelow) (Layer.ends_thunkOpening
      (w := { w with held := [.type t.id] ++ w.held }) hcode hrealizes (ht.find?_lineage hlookup) (fun d hd => ?_)
      fun _ => ?_) (Nat.le_trans (Layer.size_thunk_le hcode) hsteps)
    · cases hnone.symm.trans hd
    · exact Layer.ends_wentUp (w := { w with held := [.type t.id] ++ w.held }) hcode hrealizes hlength fun m hm =>
        Layer.slot_of_superTarget? hm
  exact .holding (.of_eq (hrun _ hlookup hnone hbelow) (.holding (Layer.comesTo_wentUp ..)))

/-- The operation of a number is looked up in the table of the proxy. -/
theorem operationAt_apply (ht : e.Proxy w₀ bridge base operations requested t)
    (hop : operations[i]? = some op) (hlookup : w.types.lookup? t.id = some t)
    (hcls : this.cls = t.id) : Runner.operationAt this i w = (.ok op, w) := by
  rw [Runner.operationAt, Action.bind_apply_ok (Action.get_apply w)]
  simp only [hcls, ht.proxy?_eq hlookup, Option.bind_some, hop]
  rfl

end Emitter.Proxy

/-! ## Dispatch -/

/-- Whether an object was never bound, or only to what is known to be gone. -/
def World.Unbound (w : World) (o : ObjectRef) : Prop :=
  (w.objects[o.index]?.bind (·.binding.target?)) = none

instance (w : World) (o : ObjectRef) : Decidable (w.Unbound o) := inferInstanceAs (Decidable (_ = none))

/-- Looking up what an object is bound to changes nothing if it is bound to nothing. -/
theorem World.Unbound.boundTo_apply {w : World} {o : ObjectRef} (h : w.Unbound o) :
    World.boundTo o w = (.ok none, w) := by
  rw [World.boundTo, Action.bind_apply_ok (Action.get_apply w)]
  rcases hstate : w.objects[o.index]? with _ | ⟨cls, fields, binding⟩
  · simp only [World.bound?, World.isBound, hstate]
    rfl
  · rw [Unbound, hstate] at h
    cases binding with
    | bound id => cases h
    | unbound =>
        simp only [World.bound?, World.isBound, hstate]
        rfl
    | lapsed =>
        -- it is marked as lapsed once more
        have hsame : (w.objects.modify o.index fun s => { s with binding := .lapsed }) = w.objects := by
          apply Array.ext_getElem?
          intro j
          rw [Array.getElem?_modify]
          split
          · subst_vars
            rw [hstate]
            rfl
          · rfl
        simp only [World.bound?, World.isBound, hstate]
        change (_, { w with objects := _ }) = _
        rw [hsame]

/-- That is so while other things are held, too. -/
theorem World.Unbound.holding_boundTo_apply {w : World} {o : ObjectRef} (h : w.Unbound o)
    (hs : List Holder) : World.holding hs (World.boundTo o) w = (.ok none, w) := by
  have hheld : { w with held := hs ++ w.held }.Unbound o := h
  rw [World.holding, Action.finally_, hheld.boundTo_apply]

namespace Runner

variable {run : Runner} {w : World} {p : PlatformId} {this : ObjectRef} {operation : Nat}
  {op source : Method} {args : List Value} {id : InstanceId} {y : Action Value}
  {f : TypeTable → Value → Except HostError Value}

/-- The host side answers the calls of an object that is under construction or bound to nothing. -/
theorem comesTo_dispatchRouted (hop : operationAt this operation w = (.ok op, w))
    (hfree : (w.platform p).constructing = some this ∨ w.Unbound this)
    (h : ComesTo w (run.overridden p this op args) y f) :
    ComesTo w (run.dispatchRouted p this operation args) y fun types v => (f types v).map .box := by
  refine .after hop (.refl w) rfl (.after (Action.get_apply w) (.refl w) rfl ?_)
  by_cases hconstructing : (w.platform p).constructing = some this
  · simp only [if_pos hconstructing]
    exact h.map _
  · have hbound := (hfree.resolve_left hconstructing).holding_boundTo_apply (args.flatMap (·.holders))
    simp only [if_neg hconstructing]
    exact .after hbound (.refl w) rfl (h.map _)

/-- The script object that an object is bound to answers its calls. -/
theorem comesTo_dispatchRouted_of_binds (hop : operationAt this operation w = (.ok op, w))
    (hidle : (w.platform p).constructing ≠ some this) (hbinds : w.Binds this id)
    (h : ComesTo { w with held := [.instance id] ++ w.held } (run.route p id op args) y f) :
    ComesTo w (run.dispatchRouted p this operation args) y fun types v => (f types v).map .box := by
  refine .after hop (.refl w) rfl (.after (Action.get_apply w) (.refl w) rfl ?_)
  have hbound : World.holding (args.flatMap (·.holders)) (World.boundTo this) w = (.ok (some id), w) := by
    rw [World.holding, Action.finally_, (hbinds.aside (.holding w _)).boundTo_apply]
  simp only [if_neg hidle]
  exact .after hbound (.refl w) rfl (h.holding.map _)

/-- A script type that names an operation of the host has that operation answer: not at all if it has no
body, as what it overrides if it is the one that was called, and else as an overload of that. -/
theorem comesTo_route {i : Instance} (hi : w.instances[id.index]? = some i)
    (hcapability : op.declaring ≠ capabilityName)
    (hresolve : i.script.resolve? w.types op.name (args.map (·.unboxed)) = some (.imported source))
    (h : ComesTo { w with held := args.flatMap (·.holders) ++ w.held }
      (if source.isAbstract then Action.raise (.unimplementedAbstract op.text i.script.name)
        else if source.slot = op.slot then run.overridden p i.bridge op args
        else run.callOverload p i.bridge source args) y f) :
    ComesTo w (run.route p id op args) y f := by
  refine .after (Action.get_apply w) (.refl w) rfl ?_
  simp only [hi, hresolve, beq_eq_false_iff_ne.2 hcapability, Bool.false_eq_true, if_false,
    ScriptFunction.isAbstractOnHost]
  exact h.holding

end Runner

/-! ## Calls that no script takes -/

/-- Whether a script type leaves the calls of a name with a number of arguments to the operations of a
base: it extends the base, and no function that it defines takes them. -/
def ScriptType.Leaves (types : TypeTable) (s : ScriptType) (base : TypeId) (name : String)
    (count : Nat) : Prop :=
  ∃ older label interfaces properties defined,
    s = TypeTable.extendScript older label base interfaces properties defined ∧
    older.methodsOf base = types.methodsOf base ∧ (∀ f ∈ defined, f.isScript = true) ∧
    ∀ f ∈ defined, f.name = name → f.accepts count = false

/-- Boxing arguments does not change which operations calls with them reach. -/
theorem TypeTable.reachedWith_unboxed_box (types : TypeTable) (name : String) (args : List Value) :
    types.reachedWith name ((args.map Value.box).map (·.unboxed)) = types.reachedWith name args := by
  funext m
  rw [reachedWith, reachedWith, answersWith, answersWith, acceptsArgs_unboxed_box, List.length_map,
    List.length_map]

/-- A call that is left to the base resolves to the first operation there that can answer it. -/
theorem ScriptType.Leaves.resolve? {types : TypeTable} {s : ScriptType} {base : TypeId} {name : String}
    {args : List Value} {m : Method} (h : s.Leaves types base name args.length)
    (hm : (types.methodsOf base).find? (types.reachedWith name args) = some m) :
    s.resolve? types name ((args.map Value.box).map (·.unboxed)) = some (.imported m) := by
  obtain ⟨older, label, interfaces, properties, defined, rfl, hbase, -, hnone⟩ := h
  refine ScriptType.resolve?_extendScript hbase ?_ ?_
  · rw [List.length_map, List.length_map]
    exact hnone
  · rw [TypeTable.reachedWith_unboxed_box]
    exact hm

/-- Whether an object is bound to a script object on a platform, and not under construction. -/
structure World.Bound (w : World) (p : PlatformId) (o : ObjectRef) (id : InstanceId) (i : Instance) :
    Prop where
  idle : (w.platform p).constructing ≠ some o
  binds : w.Binds o id
  «instance» : w.instances[id.index]? = some i
  bridge : i.bridge = o

theorem World.Bound.aside {w w' : World} {p : PlatformId} {o : ObjectRef} {id : InstanceId}
    {i : Instance} (h : w.Bound p o id i) (haside : w.Aside w') : w'.Bound p o id i where
  idle := haside.constructing p ▸ h.idle
  binds := h.binds.aside haside
  «instance» := haside.instances ▸ h.instance
  bridge := h.bridge

namespace Emitter.Proxy

variable {e : Emitter} {w₀ w : World} {bridge base : HostType} {operations : List Method}
  {requested : List TypeId} {t : HostType} {n : Nat} {op own thunk source : Method} {p : PlatformId}
  {this : ObjectRef} {args : List Value} {steps : Nat} {id : InstanceId} {i : Instance} {y : Action Value}
  {f : TypeTable → Value → Except HostError Value}

/-- On an object that is bound, a thunk comes to what answers for the operation that the script type
names. -/
theorem comesTo_thunk_of_bound (ht : e.Proxy w₀ bridge base operations requested t)
    (hop : operations[n]? = some op) (hthunk : t.methods[2 * n]? = some thunk) (hn : n < 0x80000000)
    (hcapability : op.declaring ≠ capabilityName) (hroutes : w.Routes p t) (hcls : this.cls = t.id)
    (hbound : w.Bound p this id i)
    (haccepts : List.Forall₂ (fun t v => w.types.accepts t v = true) op.params args)
    (hresolve : i.script.resolve? w.types op.name ((args.map Value.box).map (·.unboxed)) =
      some (.imported source))
    (hsteps : 6 * op.params.length + 16 ≤ steps) (depth : Nat)
    (h : ∀ w', w.Aside w' → ComesTo w'
      (if source.isAbstract then Action.raise (.unimplementedAbstract op.text i.script.name)
        else if source.slot = op.slot then
          (exec steps (depth + 1)).overridden p this op (args.map Value.box)
        else (exec steps (depth + 1)).callOverload p this source (args.map Value.box)) y f) :
    ComesTo w (exec steps (depth + 3) (.method thunk this args)) y
      fun types v => (f types v).map .box >>= types.unboxOrCast op.returns := by
  refine ht.comesTo_thunk hop hthunk hn hroutes (hcls ▸ TypeTable.mem_lineage hroutes.lookup) haccepts hsteps depth
    fun w' haside => ?_
  have hbound' := hbound.aside haside
  refine Runner.comesTo_dispatchRouted_of_binds
    (ht.operationAt_apply hop (hroutes.aside haside).lookup hcls) hbound'.idle hbound'.binds ?_
  refine Runner.comesTo_route hbound'.instance hcapability (haside.types ▸ hresolve) ?_
  rw [hbound.bridge]
  exact h _ ((haside.trans (.holding _ _)).trans (.holding _ _))

/-- On an object that is under construction or bound to nothing, a thunk comes to the host side of its
operation. -/
theorem comesTo_thunk_of_free (ht : e.Proxy w₀ bridge base operations requested t)
    (hop : operations[n]? = some op) (hthunk : t.methods[2 * n]? = some thunk) (hn : n < 0x80000000)
    (hown : t.methods[2 * n + 1]? = some own) (hroutes : w.Routes p t) (hcls : this.cls = t.id)
    (hfree : (w.platform p).constructing = some this ∨ w.Unbound this)
    (haccepts : List.Forall₂ (fun t v => w.types.accepts t v = true) op.params args)
    (hfound : w.types.findAccessor t.id op = .ok own)
    (hsteps : 6 * op.params.length + 16 ≤ steps) (depth : Nat) :
    ComesTo w (exec steps (depth + 3) (.method thunk this args))
      (Layer.hostSide (exec steps depth) op this args (Layer.superTarget? w₀.types bridge.id op))
      fun types v => types.unboxOrCast op.returns (if op.returns.isVoid then .void else v).box := by
  refine ht.comesTo_thunk (f := fun _ v => .ok (if op.returns.isVoid then .void else v).box) hop hthunk
    hn hroutes (hcls ▸ TypeTable.mem_lineage hroutes.lookup) haccepts hsteps depth fun w' haside => ?_
  have hroutes' := hroutes.aside haside
  have hfree' : (w'.platform p).constructing = some this ∨ w'.Unbound this := by
    rw [haside.constructing, World.Unbound, haside.objects]
    exact hfree
  refine Runner.comesTo_dispatchRouted (f := fun _ v => .ok (if op.returns.isVoid then .void else v))
    (ht.operationAt_apply hop hroutes'.lookup hcls) hfree' ?_
  exact ht.comesTo_overridden hop hown hroutes'.lookup hroutes'.accessors (haside.types ▸ hfound) hcls
    (haside.types ▸ haccepts) (by omega) depth

end Emitter.Proxy

end Interpose
