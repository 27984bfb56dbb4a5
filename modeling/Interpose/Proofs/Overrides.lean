import Interpose.Proofs.Extensions

/-!
# Calls that scripts take

The call of an operation on a bound object goes to the first function that its script type defines for
the name and the number of arguments. The thunk boxes the arguments, the router takes primitives out of
their boxes again, and what the function returns is converted to what the operation returns.
-/

namespace Interpose

open Interpose.Action (ComesTo)

/-! ## Functions of a script type -/

/-- Boxing a value does not change what is in the box. -/
theorem Value.unboxed_box (v : Value) : v.box.unboxed = v.unboxed := by
  cases v <;> rfl

/-- A result of a script is boxed. -/
theorem TypeTable.box_of_toHost {types : TypeTable} {t : ValueType} {v u : Value}
    (h : types.toHost t v = .ok u) : u.box = u := by
  unfold toHost at h
  dsimp only at h
  generalize hreference : (if types.accepts t v.box then Except.ok v.box
    else Except.error (types.mismatch t.text v.box)) = reference at h
  have hboxed (hr : reference = .ok u) : u.box = u := by
    rw [← hreference] at hr
    split at hr
    · cases hr
      exact Value.box_box v
    · cases hr
  split at h
  · cases h
    rfl
  · exact hboxed h
  · split at h
    · split at h <;> cases h
      rfl
    · split at h
      · cases h
      · exact hboxed h

namespace ScriptType

variable {s : ScriptType} {name : String} {f : ScriptFunction}

/-- The function of a script type that takes the calls of a name with a number of arguments: the first
that the script defines for them. -/
def taker? (s : ScriptType) (name : String) (count : Nat) : Option ScriptFunction :=
  s.functions.find? fun f => f.isScript && (f.name == name && f.accepts count)

/-- What takes calls is a function that the script defines. -/
theorem eq_scripted_of_taker {count : Nat} (h : s.taker? name count = some f) :
    ∃ name arity body, f = .scripted name arity body := by
  unfold taker? at h
  have hf := List.find?_some h
  cases f with
  | scripted name arity body => exact ⟨name, arity, body, rfl⟩
  | imported source => cases hf

/-- A call goes to the function that takes it. -/
theorem resolve?_of_taker (types : TypeTable) {args : List Value}
    (h : s.taker? name args.length = some f) : s.resolve? types name args = some f := by
  have hfirst : ((s.named name).filter (·.accepts args.length)).find? (·.isScript) = some f := by
    rw [← h, taker?, named, List.find?_filter, List.find?_filter]
    -- the same three tests in another order
    congr 1
    funext g
    cases g.isScript <;> cases g.name == name <;> cases g.accepts args.length <;> rfl
  simp only [resolve?, hfirst]

end ScriptType

/-! ## Routed calls of a function -/

section

variable {run : Runner} {w : World} {p : PlatformId} {id : InstanceId} {i : Instance} {op : Method}
  {args : List Value} {name : String} {arity : Option Nat} {body : ScriptBody} {y : Action Value}

/-- A function that takes a call answers it, with its result as one of the host. -/
theorem Runner.comesTo_route_of_taker (hi : w.instances[id.index]? = some i)
    (hcapability : op.declaring ≠ capabilityName)
    (htaker : i.script.taker? op.name args.length = some (.scripted name arity body))
    (h : ∀ w', w.Aside w' →
      ComesTo w' (run (.function (.scripted name arity body) id (args.map (·.unboxed)))) y
        fun _ v => .ok v) :
    ComesTo w (run.route p id op args) y fun types v =>
      if op.returns.isVoid then .ok .void else types.toHost op.returns v := by
  have hresolve : i.script.resolve? w.types op.name (args.map (·.unboxed)) =
      some (.scripted name arity body) :=
    ScriptType.resolve?_of_taker _ (by rwa [List.length_map])
  refine .after (Action.get_apply w) (.refl w) rfl ?_
  simp only [hi, hresolve, beq_eq_false_iff_ne.2 hcapability, Bool.false_eq_true, if_false,
    ScriptFunction.isAbstractOnHost]
  refine .holding ?_
  have hfunction := h _ (.holding w (args.flatMap (·.holders)))
  by_cases hvoid : op.returns.isVoid = true
  · simp only [hvoid, if_true]
    exact hfunction.map fun _ => .void
  · simp only [hvoid, Bool.false_eq_true, if_false]
    exact hfunction.convert

end

/-- What the caller of an operation gets when a function of a script answered it. -/
def TypeTable.answer (types : TypeTable) (returns : ValueType) (v : Value) : Except HostError Value :=
  if returns.isVoid then .ok .void else types.toHost returns v >>= types.unboxOrCast returns

/-- Boxing the result of a script before the thunk converts it changes nothing. -/
theorem TypeTable.answer_eq (types : TypeTable) (returns : ValueType) (v : Value) :
    ((if returns.isVoid then .ok .void else types.toHost returns v).map .box >>=
      types.unboxOrCast returns) = types.answer returns v := by
  unfold answer
  by_cases hvoid : returns.isVoid = true
  · rw [if_pos hvoid, if_pos hvoid]
    cases returns <;> first | rfl | cases hvoid
  · rw [if_neg hvoid, if_neg hvoid]
    cases hresult : types.toHost returns v with
    | error e => rfl
    | ok u =>
        rw [Except.map, box_of_toHost hresult]

namespace Emitter.Proxy

variable {e : Emitter} {w₀ w : World} {bridge base : HostType} {operations : List Method}
  {requested : List TypeId} {t : HostType} {n : Nat} {op thunk : Method} {p : PlatformId}
  {this : ObjectRef} {args : List Value} {steps : Nat} {id : InstanceId} {i : Instance}
  {f : ScriptFunction}

/-- On an object that is bound, a thunk comes to the function that takes its calls, run on the script
object and the arguments with primitives out of their boxes. -/
theorem comesTo_thunk_of_taker (ht : e.Proxy w₀ bridge base operations requested t)
    (hop : operations[n]? = some op) (hthunk : t.methods[2 * n]? = some thunk) (hn : n < 0x80000000)
    (hcapability : op.declaring ≠ capabilityName) (hroutes : w.Routes p t) (hcls : this.cls = t.id)
    (hbound : w.Bound p this id i)
    (haccepts : List.Forall₂ (fun t v => w.types.accepts t v = true) op.params args)
    (htaker : i.script.taker? op.name args.length = some f)
    (hsteps : 6 * op.params.length + 16 ≤ steps) (depth : Nat) :
    ComesTo w (exec steps (depth + 3) (.method thunk this args))
      (exec steps (depth + 1) (.function f id (args.map (·.unboxed))))
      fun types v => types.answer op.returns v := by
  obtain ⟨name, arity, body, rfl⟩ := ScriptType.eq_scripted_of_taker htaker
  -- the router takes out of the boxes what the thunk put into them
  have hraw : (args.map Value.box).map (·.unboxed) = args.map (·.unboxed) := by
    rw [List.map_map]
    exact List.map_congr_left fun v _ => v.unboxed_box
  refine (ht.comesTo_thunk (f := fun types v => (if op.returns.isVoid then .ok .void
    else types.toHost op.returns v).map .box) hop hthunk hn hroutes (hcls ▸ TypeTable.mem_lineage hroutes.lookup)
    haccepts hsteps depth fun w' haside => ?_).congr fun _ v after _ _ => after.types.answer_eq op.returns v
  have hbound' := hbound.aside haside
  refine Runner.comesTo_dispatchRouted_of_binds
    (ht.operationAt_apply hop (hroutes.aside haside).lookup hcls) hbound'.idle hbound'.binds ?_
  have hboxed : i.script.taker? op.name (args.map Value.box).length =
      some (.scripted name arity body) := by rwa [List.length_map]
  refine Runner.comesTo_route_of_taker hbound'.instance hcapability hboxed fun w'' _ => ?_
  rw [hraw]
  exact .refl (held_exec steps (depth + 1) _ w'')

end Emitter.Proxy

/-! ## Calls on script objects that were made -/

/-- Whether the array with the operation numbers of a subtype has the numbers that it had at first. -/
def World.KeepsTable (w : World) (t : HostType) : Prop :=
  ∀ g, t.generated = some g →
    w.arrays[g.table.index]? = some ((Array.range g.operations.length).map .operation)

namespace World

variable {w w₁ w₂ : World} {p : PlatformId} {base t : HostType} {interfaces properties : List TypeId}
  {script : ScriptType} {params : List ValueType} {given args : List Value} {id : InstanceId}
  {o : ObjectRef} {op : Method} {n steps₀ depth₀ : Nat}

/-- In a sane world the calls of a subtype that a platform provides go to the platform, as long as its
table is kept. -/
theorem Provides.routes (h : w.Provides p base interfaces properties t) (hs : w.Sane)
    (htable : w.KeepsTable t) : w.Routes p t := by
  obtain ⟨e, older, w₀, b, hstands⟩ := h.subtype.stands
  exact ⟨hstands.lookup, htable, h.dispatcher, hs.accessors p⟩

/-- A script object that was made stays the one that its bridge is bound to while it is alive. -/
theorem Made.bound (h : w.Made p t.id script id o) (hlater : w.Later w₁)
    (hidle : (w₁.platform p).constructing ≠ some o) (hbinds : w₁.Binds o id) :
    ∃ i, w₁.Bound p o id i ∧ i.script = script := by
  obtain ⟨i, hi, hscript, hbridge, -⟩ := h.instance
  obtain ⟨i', hi', hsame⟩ := hlater.instances _ i hi
  exact ⟨i', ⟨hidle, hbinds, hi', hsame.bridge.trans hbridge⟩, hsame.script.trans hscript⟩

/-- Calls can reach an operation of a subtype unless it is private. -/
theorem Stands.isVirtual {e : Emitter} {older : TypeTable} {w₀ : World} {b : HostType}
    (h : w.Stands e older w₀ base interfaces properties b t)
    (hop : (w.types.proxy? t.id).bind (·.operations[n]?) = some op)
    (hprivate : op.modifiers.isPrivate = false) : op.isVirtual = true := by
  have hoffered := (Emitter.Bridge.offered_of_mem_harvest
    (List.mem_of_getElem? (h.getElem?_operations hop))).1
  rw [Method.isOffered, Method.isInterceptable] at hoffered
  simp only [Bool.and_eq_true] at hoffered
  rw [Method.isVirtual, hprivate, hoffered.2.1.1]
  rfl

/-- **Overriding.** What a platform of a sane world makes for a script type is a script object whose bridge is
of a subtype of what the script type extends. At any later time at which the script object is alive, the
bridge is not under construction and the table of the subtype is kept, the call of an operation that is
neither that of the capability nor private comes to the first function that the script type defines for the
name and the number of arguments: it runs on the script object and the arguments with primitives out of
their boxes, and the call ends with its result as what the operation returns. -/
theorem invoke_scripted (hs : w.Sane) (hp : p.index < w.platforms.size)
    (hdeclared : script.Declared w.types)
    (hextend : (exec steps₀ depth₀).extend p script params given w = (.ok (.ok id), w₁)) :
    ∃ o base interfaces properties t, w₁.Made p t.id script id o ∧ base.id = script.base ∧
      w₁.HasSubtype base interfaces properties t ∧
      ∀ {w₂ : World} {n : Nat} {op : Method} {args : List Value} {f : ScriptFunction} {steps : Nat}
        (depth : Nat), w₁.Later w₂ → w₂.KeepsTable t → w₂.Binds o id →
        (w₂.platform p).constructing ≠ some o →
        (w₂.types.proxy? t.id).bind (·.operations[n]?) = some op → n < 0x80000000 →
        op.declaring ≠ capabilityName → op.modifiers.isPrivate = false →
        List.Forall₂ (fun t v => w₂.types.accepts t v = true) op.params args →
        script.taker? op.name args.length = some f → 6 * op.params.length + 16 ≤ steps →
        ComesTo w₂ ((exec steps (depth + 3)).invoke o op.slot args)
          (exec steps (depth + 1) (.function f id (args.map (·.unboxed))))
          fun types v => types.answer op.returns v := by
  obtain ⟨hlater₁, proxy, o, hmade, base, interfaces, properties, loader, t, hkey, rfl, hprovides⟩ :=
    Runner.made_of_extend hs hp hdeclared hextend
  refine ⟨o, base, interfaces, properties, t, hmade, (congrArg CacheKey.base hkey).symm,
    hprovides.subtype, fun {w₂ n op args f steps} depth hlater htable hbinds hidle hop hn hcapability hprivate
    haccepts htaker hsteps => ?_⟩
  have hs₁ := hlater₁.sane hs
  have hs₂ := hlater.sane hs₁
  -- the subtype and what dispatches its calls are still there at the later time
  have hprovides₂ := hprovides.later hlater hs₁
  obtain ⟨i, hbound, rfl⟩ := hmade.bound hlater hidle hbinds
  obtain ⟨e, older, w₀, b, hstands⟩ := hprovides₂.subtype.stands
  have hlisted := hstands.getElem?_operations hop
  obtain ⟨thunk, hthunk, hinvoke⟩ := hstands.proxy.invoke_apply hlisted (hstands.isVirtual hop hprivate)
    hstands.lookup hmade.cls (exec steps (depth + 3))
  exact .of_eq (hinvoke args) (hstands.proxy.comesTo_thunk_of_taker hlisted hthunk hn hcapability
    (hprovides₂.routes hs₂ htable) hmade.cls hbound haccepts htaker hsteps depth)

end World

/-! ## A class with two operations that a script type overrides -/

/-- An operation without parameters whose body reports what it does. -/
def valveMethod (name done : String) : Method :=
  ⟨name, [], .reference stringName, .public, "Gauge", ⟨2⟩, .native fun _ _ => .done (.str done)⟩

def valveOpen : Method := valveMethod "open" "host opens"

def valveShut : Method := valveMethod "shut" "host shuts"

/-- A class that has both and a constructor. -/
def valve : HostType :=
  { gauge [valveOpen, valveShut] with constructors := [⟨[], .public, "Gauge", .inherited none⟩] }

/-- A function without parameters that reports what it does. -/
def valveFunction (name done : String) : ScriptFunction :=
  .scripted name (some 0) fun _ _ _ => .done (.str done)

/-- A script type that overrides both. -/
def valveScript : ScriptType :=
  TypeTable.extendScript (valve :: TypeTable.initial) "Script" valve.id [] []
    [valveFunction "open" "script opens", valveFunction "shut" "script shuts"]

/-- The object that becomes the bridge of the first script object. -/
def valveObject : ObjectRef := ⟨0, ⟨4⟩⟩

/-- The world with the class, whose platform does not verify what it generates. -/
def valveWorld : World :=
  { World.initial { verifyCode := false } with types := valve :: TypeTable.initial }

/-- Code that puts the third number of a table of operations in the place of the second one. -/
def overwriteCode : Code where
  name := "overwrite"
  arity := 1
  locals := 1
  instrs := #[.getStatic .operations, .const 0, .getStatic .operations, .const 1, .arrayLoad, .arrayStore,
    .retVoid]
  constants := #[.int 1, .int 2]

/-- A class below the subtype that has this code. -/
def valveBreaker : ClassDef :=
  ⟨"Breaker", .public, ⟨4⟩, [], [], [], [⟨"overwrite", [], .void, .public, overwriteCode⟩], none⟩

/-- Defines the class, whose code is verified, and runs its code on an object of it. -/
def breakValve : Action Value := do
  match (⟨.weave, true⟩ : Emitter).define (← get) valveBreaker .system with
  | .error _ => return .null
  | .ok (id, w) =>
    set w
    let o ← World.allocate id
    (exec 30 6).invoke o ⟨"overwrite", .void, []⟩ []

/-- Makes a script object with a bridge of the subtype. -/
def World.extendValve (w : World) : Except Halt (Except PlatformError InstanceId) × World :=
  (exec 30 6).createInstance .first ⟨4⟩ valveScript [] [] (w.remembering .first
    (Registry.generated {} (CacheKey.of valve.id [] [] .system) ⟨4⟩))

/-- The world in which that script object is held. -/
def World.holdingValve (w : World) : World :=
  { w.extendValve.2 with held := [.instance ⟨0⟩] }

/-- Whether the script object is made, its bridge and the table of the subtype are as they should be, and the
function for one operation answers the other one once the code has run. -/
def World.HasValve (w : World) : Prop :=
  w.extendValve.1 = .ok (.ok ⟨0⟩) ∧
  w.extendValve.2.instances[0]?.map (·.bridge) = some valveObject ∧
  (w.holdingValve.types.proxy? ⟨4⟩).map (fun g => g.operations.map fun op =>
    (op.slot, op.modifiers.isPrivate, op.declaring == capabilityName)) =
      some [(capabilitySlot, false, true), (valveOpen.slot, false, false), (valveShut.slot, false, false)] ∧
  ((w.holdingValve.types.lookup? ⟨4⟩).bind (·.generated)).map (fun g =>
    (g.operations.length, w.holdingValve.arrays[g.table.index]?)) =
      some (3, some ((Array.range 3).map .operation)) ∧
  (w.holdingValve.platform .first).constructing = none ∧
  (breakValve w.holdingValve).1 = .ok .void ∧
  ((exec 30 6).invoke valveObject valveOpen.slot [] (breakValve w.holdingValve).2).1 =
    .ok (.str "script shuts")

instance : DecidablePred World.HasValve := fun _ => inferInstanceAs (Decidable (_ ∧ _))

/-- The script object is made in the world with the class. -/
theorem exists_hasValve : ∃ w : World, w.HasValve ∧
    (exec 30 6).extend .first valveScript [] [] valveWorld = (.ok (.ok ⟨0⟩), w.extendValve.2) := by
  have hgenerate : ∃ w : World, World.generate ⟨.weave, false⟩ valve.id [] [] .system (some ⟨0⟩) valveWorld =
      (.ok ⟨4⟩, w) ∧ w.HasValve := by
    apply World.exists_generate (P := World.HasValve)
    · rfl
    · rfl
    · rw [TypeTable.harvestAbstract, TypeTable.harvest, TypeTable.interfaceList, TypeTable.extendFound]
      rfl
    · rfl
    · exact TypeTable.harvest_singleton rfl rfl rfl
    -- what is left is evaluated in the world that the subtype is generated in
    · apply exists_eq_ok_of_decide (P := fun w : World => World.HasValve { w with installed := _ })
      decide +kernel
    · rfl
  obtain ⟨w, hw, h⟩ := hgenerate
  refine ⟨w, h, ?_⟩
  rw [← h.1]
  exact Runner.extend_apply_of_generate rfl rfl rfl hw

/-- The world with the class is sane. -/
theorem sane_valveWorld : valveWorld.Sane where
  numbered := numbered_gauge [valveOpen, valveShut]
  start := ⟨[valve], rfl⟩
  scripts := by
    intro n hn
    cases hn
  routing := by
    intro p hp
    obtain ⟨_ | k⟩ := p
    · rfl
    · exact absurd hp (Nat.not_lt.2 (Nat.le_add_left 1 k))
  accessors := by
    intro p
    obtain ⟨_ | k⟩ := p
    · exact AccessorCache.sound_nil 0
    · exact AccessorCache.sound_nil 0
  registry := by
    intro p key id hentry
    obtain ⟨_ | k⟩ := p
    · cases hentry
    · cases hentry

namespace World.HasValve

variable {w : World} {t : HostType}

/-- The first operation of the class has a place in the table. -/
theorem operation (h : w.HasValve) (hid : ⟨4⟩ = t.id) :
    ∃ op, (w.holdingValve.types.proxy? t.id).bind (·.operations[1]?) = some op ∧
      op.slot = valveOpen.slot ∧ op.modifiers.isPrivate = false ∧ op.declaring ≠ capabilityName := by
  obtain ⟨-, -, hlists, -⟩ := h
  rw [hid] at hlists
  obtain ⟨g, hg, hslots⟩ := Option.map_eq_some_iff.1 hlists
  obtain ⟨a, rest, hall, -, hrest⟩ := List.map_eq_cons_iff.1 hslots
  obtain ⟨op, rest, rfl, hop, -⟩ := List.map_eq_cons_iff.1 hrest
  simp only [Prod.mk.injEq, beq_eq_false_iff_ne] at hop
  refine ⟨op, ?_, hop⟩
  rw [hg, Option.bind_some, hall]
  rfl

/-- The table is as it was at first. -/
theorem keepsTable (h : w.HasValve) (hid : ⟨4⟩ = t.id)
    (hlookup : w.holdingValve.types.lookup? t.id = some t) : w.holdingValve.KeepsTable t := by
  obtain ⟨-, -, -, htable, -⟩ := h
  intro g hg
  rw [hid, hlookup, Option.bind_some, hg] at htable
  obtain ⟨hlength, harray⟩ := Prod.mk.inj (Option.some.inj htable)
  rw [harray, hlength]

end World.HasValve

/-- The call of an operation is answered by the function of the script type. -/
theorem World.invoke_scripted_valve : ∃ w, (exec 30 6).extend .first valveScript [] [] valveWorld =
      (.ok (.ok ⟨0⟩), w) ∧
    ((exec 16 3).invoke valveObject valveOpen.slot [] { w with held := [.instance ⟨0⟩] }).1 =
      .ok (.str "script opens") := by
  obtain ⟨w, h, hextend⟩ := exists_hasValve
  refine ⟨_, hextend, ?_⟩
  have hdeclared : valveScript.Declared valveWorld.types := by
    intro i hi
    cases hi with
    | head => decide
    | tail _ hi => cases hi
  obtain ⟨o, base, interfaces, properties, t, hmade, -, ht, hcalls⟩ :=
    World.invoke_scripted sane_valveWorld (by decide) hdeclared hextend
  obtain ⟨i, hi, -, rfl, -⟩ := hmade.instance
  obtain ⟨-, hbridge, -, -, hidle, -⟩ := id h
  rw [hi] at hbridge
  have ho : i.bridge = valveObject := Option.some.inj hbridge
  rw [ho] at hmade hcalls
  obtain ⟨e, older, w₀, b, hstands⟩ := ht.stands
  have hid : (⟨4⟩ : TypeId) = t.id := hmade.cls
  obtain ⟨op, hop, hslot, hprivate, hcapability⟩ := h.operation hid
  obtain ⟨hname, hreturns, hparams⟩ := Slot.mk.inj hslot
  have hbinds : w.holdingValve.Binds valveObject ⟨0⟩ := by
    obtain ⟨state, hstate, hbinding⟩ := hmade.object
    exact World.binds_of_mem_roots hstate hbinding (List.mem_append_left _ List.mem_cons_self)
  have hlater : w.extendValve.2.Later w.holdingValve := .of_held _ _
  have hfree : (w.holdingValve.platform .first).constructing ≠ some valveObject := by
    rw [hidle]
    intro hsame
    cases hsame
  have hcomes : ComesTo w.holdingValve ((exec 16 3).invoke valveObject op.slot [])
      (exec 16 1 (.function (valveFunction "open" "script opens") ⟨0⟩ []))
      fun types v => types.answer op.returns v :=
    hcalls 0 hlater (h.keepsTable hid hstands.lookup) hbinds hfree hop (by decide) hcapability hprivate
      (hparams ▸ .nil) (hname ▸ rfl) (by rw [hparams]; decide)
  rw [hslot] at hcomes
  refine hcomes.fst_eq_ok (v := .str "script opens") (fun w' haside => ?_) fun types => ?_
  · have hi' : w'.instances[0]? = some i := haside.instances ▸ hi
    simp only [exec, World.holding, Action.finally_, Runner.runTask, valveFunction, Action.bind_apply,
      Action.get_apply, hi']
    rfl
  · rw [hreturns]
    rfl

/-- Verified code below the subtype overwrites the number of an operation with that of another one, so that the
call of the first is answered by the function for the other one. -/
theorem World.invoke_scripted_differs : ∃ w w', (exec 30 6).extend .first valveScript [] [] valveWorld =
      (.ok (.ok ⟨0⟩), w) ∧
    breakValve { w with held := [.instance ⟨0⟩] } = (.ok .void, w') ∧
    valveScript.taker? "open" 0 = some (valveFunction "open" "script opens") ∧
    ((exec 30 6).invoke valveObject valveOpen.slot [] w').1 = .ok (.str "script shuts") := by
  obtain ⟨w, ⟨-, -, -, -, -, hbroken, hanswer⟩, hextend⟩ := exists_hasValve
  exact ⟨w.extendValve.2, (breakValve w.holdingValve).2, hextend, Prod.ext hbroken rfl, rfl, hanswer⟩

end Interpose
