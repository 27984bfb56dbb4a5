import Interpose.Proofs.Granting
import Interpose.Proofs.Overrides

/-!
# Arguments that come back

A function of a script gets primitives without their boxes, and what it returns is put into the form in which
results of the operation are held. For an argument of the type of the result the second undoes the first, on
every value that the parameter accepts, and it still does when types were declared meanwhile.
-/

namespace Interpose

open Interpose.Action (ComesTo)

/-! ## Acceptance in a growing table -/

namespace TypeTable

variable {new types : TypeTable} {t : ValueType} {v : Value}

/-- A type stays below those that it is below while types are added. -/
theorem Numbered.isSubtypeOf_append (h : Numbered (new ++ types)) {id : TypeId} {name : String}
    (hsub : types.isSubtypeOf id name = true) : isSubtypeOf (new ++ types) id name = true := by
  by_cases hid : id.index < types.length
  · rwa [isSubtypeOf, lineage_append fun t => h.ne_of_mem hid, h.allInterfaces_append hid]
  · -- a type that is not there is below nothing but the root
    have hlineage : types.lineage id = [] :=
      List.eq_nil_iff_forall_not_mem.2 fun t ht => hid (h.of_append.index_lt_of_mem_lineage ht)
    rw [isSubtypeOf, allInterfaces, hlineage] at hsub
    have hroot : (name == objectName) = true := by simpa using hsub
    rw [isSubtypeOf, hroot, Bool.true_or, Bool.true_or]

/-- A slot still accepts what it accepted when types were added. -/
theorem Numbered.accepts_append (h : Numbered (new ++ types)) (haccepts : types.accepts t v = true) :
    accepts (new ++ types) t v = true := by
  cases t with
  | void => cases v <;> exact haccepts
  | primitive k => cases v <;> exact haccepts
  | array item => cases v <;> exact haccepts
  | reference name =>
      cases v with
      | object o => exact h.isSubtypeOf_append haccepts
      | _ => exact haccepts

end TypeTable

/-! ## Values that come back -/

/-- A type of raw primitives holds those of its kind. -/
theorem ValueType.boxedKind?_of_kind {t : ValueType} {kind : Kind} (h : t.kind? = some kind) :
    t.boxedKind? = some kind := by
  cases t <;> cases h
  rfl

/-- Taking a value out of its box first does not change what putting it there gives. -/
theorem Value.box_unboxed (v : Value) : v.unboxed.box = v.box := by
  cases v <;> rfl

namespace TypeTable

variable {types : TypeTable} {t : ValueType} {v : Value}

/-- A primitive that a slot accepts, raw or in its box, is of the kind that the slot holds. -/
theorem kind_of_accepts {p : Primitive} {kind : Kind} (h : types.accepts t v = true)
    (hp : v.primitive? = some p) (hkind : t.boxedKind? = some kind) : p.kind = kind := by
  cases t with
  | void => cases hkind
  | array item => cases hkind
  | primitive k =>
      cases hkind
      cases v with
      | prim q =>
          cases hp
          exact beq_iff_eq.1 h
      | _ => cases h
  | reference name =>
      cases v with
      | prim q => cases h
      | boxed q =>
          cases hp
          rw [ValueType.boxedKind?] at hkind
          rcases Bool.or_eq_true_iff.1 h with hname | hname
          · rw [beq_iff_eq.1 hname, Kind.ofBoxName?_boxName] at hkind
            exact Option.some.inj hkind
          · -- the root is the type of no box
            rw [beq_iff_eq.1 hname] at hkind
            cases hkind
      | _ => cases hp

/-- A primitive of the kind that a result holds is put into its box. -/
theorem toHost_of_primitive {p : Primitive} (hp : v.primitive? = some p)
    (hkind : t.boxedKind? = some p.kind) : types.toHost t v = .ok (.boxed p) := by
  unfold toHost
  cases t with
  | void => cases hkind
  | array item => cases hkind
  | primitive k => simp only [hkind, hp, Primitive.convert_self]
  | reference name => simp only [hkind, hp, Primitive.convert_self]

/-- A result that is no primitive is accepted as it stands, and so is any where no primitive is held. -/
theorem toHost_of_accepts (h : types.accepts t v.box = true)
    (hnone : t.boxedKind? = none ∨ v.primitive? = none) (hkind : t.kind? = none) (hvoid : t.isVoid = false) :
    types.toHost t v = .ok v.box := by
  unfold toHost
  cases t with
  | void => cases hvoid
  | primitive k => cases hkind
  | array item => exact if_pos h
  | reference name =>
      cases hboxed : (ValueType.reference name).boxedKind? with
      | none => exact if_pos h
      | some kind =>
          have hprimitive : v.primitive? = none := hnone.resolve_left (by rw [hboxed]; exact Option.some_ne_none _)
          simp only [hprimitive, ValueType.kind?, Option.isSome_none, Bool.false_eq_true, and_false, if_false]
          exact if_pos h

/-- What was received of a value that a slot accepts becomes that value in its box. -/
theorem toHost_unboxed (h : types.accepts t v = true) (hvoid : t.isVoid = false) :
    types.toHost t v.unboxed = .ok v.box := by
  have hprimitive : v.unboxed.primitive? = v.primitive? := by cases v <;> rfl
  have hbox := box_of_accepts h
  by_cases hheld : t.boxedKind? = none ∨ v.primitive? = none
  · cases hkind : t.kind? with
    | some kind =>
        -- a raw primitive is held in its box then
        rw [hkind] at hbox
        obtain ⟨p, rfl, -⟩ := hbox
        rw [ValueType.boxedKind?_of_kind hkind] at hheld
        rcases hheld with hheld | hheld <;> cases hheld
    | none =>
        rw [hkind] at hbox
        rw [← v.box_unboxed]
        refine toHost_of_accepts ?_ (hprimitive ▸ hheld) hkind hvoid
        rwa [v.box_unboxed, show v.box = v from hbox]
  · obtain ⟨hboxed, hp⟩ := not_or.1 hheld
    obtain ⟨kind, hkind⟩ := Option.ne_none_iff_exists'.1 hboxed
    obtain ⟨p, hp⟩ := Option.ne_none_iff_exists'.1 hp
    have hput : v.box = .boxed p := by cases v <;> cases hp <;> rfl
    rw [hput]
    exact toHost_of_primitive (hprimitive.trans hp) (hkind.trans (congrArg some (kind_of_accepts h hp hkind).symm))

/-- A caller gets back what a slot of the result's type accepted. -/
theorem answer_unboxed (h : types.accepts t v = true) : types.answer t v.unboxed = .ok v := by
  unfold answer
  by_cases hvoid : t.isVoid = true
  · rw [if_pos hvoid]
    cases t <;> cases hvoid
    cases v <;> first | rfl | cases h
  · rw [if_neg hvoid, toHost_unboxed h (Bool.eq_false_iff.2 hvoid)]
    exact unboxOrCast_box h

end TypeTable

/-! ## Calls that end with an argument -/

namespace World

variable {w w₁ : World} {p : PlatformId} {base t : HostType} {interfaces properties : List TypeId}
  {script : ScriptType} {params : List ValueType} {given args : List Value} {id : InstanceId}
  {o : ObjectRef} {op : Method} {f : ScriptFunction} {v : Value} {i n steps steps₀ depth₀ : Nat}

/-- A call leaves a later world. -/
theorem later_invoke (steps depth : Nat) (o : ObjectRef) (slot : Slot) (args : List Value) (w : World) :
    w.Later ((exec steps depth).invoke o slot args w).2 :=
  (Runner.routine_invoke o slot args).uniform.later steps depth w

/-- In a sane world, the call of an operation on an object that is bound comes to the function that takes it, and
what the caller gets is told by the types that are there when the function has run. -/
theorem Provides.comesTo_invoke (h : w.Provides p base interfaces properties t) (hs : w.Sane)
    (htable : w.KeepsTable t) (hcls : o.cls = t.id) {s : Instance} (hbound : w.Bound p o id s)
    (hop : (w.types.proxy? t.id).bind (·.operations[n]?) = some op) (hn : n < 0x80000000)
    (hcapability : op.declaring ≠ capabilityName) (hprivate : op.modifiers.isPrivate = false)
    (haccepts : List.Forall₂ (fun t v => w.types.accepts t v = true) op.params args)
    (htaker : s.script.taker? op.name args.length = some f)
    (hsteps : 6 * op.params.length + 16 ≤ steps) (depth : Nat) :
    ComesTo w ((exec steps (depth + 3)).invoke o op.slot args)
      (exec steps (depth + 1) (.function f id (args.map (·.unboxed))))
      fun types v => types.answer op.returns v := by
  obtain ⟨e, older, w₀, b, hstands⟩ := h.subtype.stands
  have hlisted := hstands.getElem?_operations hop
  obtain ⟨thunk, hthunk, hinvoke⟩ := hstands.proxy.invoke_apply hlisted (hstands.isVirtual hop hprivate)
    hstands.lookup hcls (exec steps (depth + 3))
  exact .of_eq (hinvoke args) (hstands.proxy.comesTo_thunk_of_taker hlisted hthunk hn hcapability
    (h.routes hs htable) hcls hbound haccepts htaker hsteps depth)

/-- A call that comes to a computation which ends with what was received of a value ends with that value, if
the types when it ends take it. -/
theorem fst_eq_of_comesTo {x y : Action Value} {returns : ValueType} (hs : w.Sane)
    (h : ComesTo w x y fun types v => types.answer returns v) (hlater : w.Later (x w).2)
    (haccepts : w.types.accepts returns v = true) (hy : ∀ w', w.Aside w' → (y w').1 = .ok v.unboxed) :
    (x w).1 = .ok v := by
  obtain ⟨w', haside, hx⟩ := h
  have hv := hy w' haside
  rcases hresult : y w' with ⟨r, after⟩
  rw [hresult] at hx hv
  obtain rfl : r = .ok v.unboxed := hv
  dsimp only at hx
  -- converting the result changes no types
  have htypes : (x w).2.types = after.types := by
    rw [hx]
    cases after.types.answer returns v.unboxed <;> rfl
  obtain ⟨new, hnew⟩ := hlater.types
  have hnumbered := (hlater.sane hs).numbered
  rw [← hnew] at hnumbered
  have haccepted : after.types.accepts returns v = true := by
    rw [← htypes, ← hnew]
    exact hnumbered.accepts_append haccepts
  rw [hx, TypeTable.answer_unboxed haccepted]
  rfl

/-- **An override that hands an argument back.** What a platform of a sane world makes for a script type is a
script object whose bridge is of a subtype of what the script type extends. At any later time at which the
script object is alive, the bridge is not under construction and the table of the subtype is kept, the call
of an operation that is neither that of the capability nor private ends with an argument of the type of its
result exactly as it was passed, whenever the function that takes the call ends with that argument as the
function received it. -/
theorem invoke_identity (hs : w.Sane) (hp : p.index < w.platforms.size)
    (hdeclared : script.Declared w.types)
    (hextend : (exec steps₀ depth₀).extend p script params given w = (.ok (.ok id), w₁)) :
    ∃ o base interfaces properties t, w₁.Made p t.id script id o ∧ base.id = script.base ∧
      w₁.HasSubtype base interfaces properties t ∧
      ∀ {w₂ : World} {n i : Nat} {op : Method} {args : List Value} {f : ScriptFunction} {v : Value}
        {steps : Nat} (depth : Nat), w₁.Later w₂ → w₂.KeepsTable t → w₂.Binds o id →
        (w₂.platform p).constructing ≠ some o →
        (w₂.types.proxy? t.id).bind (·.operations[n]?) = some op → n < 0x80000000 →
        op.declaring ≠ capabilityName → op.modifiers.isPrivate = false →
        List.Forall₂ (fun t v => w₂.types.accepts t v = true) op.params args →
        script.taker? op.name args.length = some f → 6 * op.params.length + 16 ≤ steps →
        op.params[i]? = some op.returns → args[i]? = some v →
        (∀ w', w₂.Aside w' →
          (exec steps (depth + 1) (.function f id (args.map (·.unboxed))) w').1 = .ok v.unboxed) →
        ((exec steps (depth + 3)).invoke o op.slot args w₂).1 = .ok v := by
  obtain ⟨hlater₁, proxy, o, hmade, base, interfaces, properties, loader, t, hkey, rfl, hprovides⟩ :=
    Runner.made_of_extend hs hp hdeclared hextend
  refine ⟨o, base, interfaces, properties, t, hmade, (congrArg CacheKey.base hkey).symm,
    hprovides.subtype, fun {w₂ n i op args f v steps} depth hlater htable hbinds hidle hop hn hcapability
    hprivate haccepts htaker hsteps hparam harg hreturned => ?_⟩
  have hs₁ := hlater₁.sane hs
  have hs₂ := hlater.sane hs₁
  obtain ⟨s, hbound, rfl⟩ := hmade.bound hlater hidle hbinds
  have hcomes := (hprovides.later hlater hs₁).comesTo_invoke hs₂ htable hmade.cls hbound hop hn hcapability
    hprivate haccepts htaker hsteps depth
  have haccepted : w₂.types.accepts op.returns v = true := by
    obtain ⟨hi, hvalue⟩ := List.getElem?_eq_some_iff.1 harg
    obtain ⟨hi', htype⟩ := List.getElem?_eq_some_iff.1 hparam
    rw [← htype, ← hvalue]
    exact haccepts.get hi' hi
  exact fst_eq_of_comesTo hs₂ hcomes (later_invoke ..) haccepted hreturned

end World

/-! ## Script objects that are held -/

namespace World

variable {w : World} {t : HostType} {p : PlatformId} {script : ScriptType} {id : InstanceId} {o : ObjectRef}
  {listed : List (Slot × Bool × Bool)} {slot : Slot} {n : Nat}

/-- Makes a script object with a bridge of the subtype that was generated for its script type. -/
def extendBy (script : ScriptType) (w : World) : Except Halt (Except PlatformError InstanceId) × World :=
  (exec 30 6).createInstance .first ⟨4⟩ script [] [] (w.remembering .first
    (Registry.generated {} (CacheKey.of script.base [] [] .system) ⟨4⟩))

/-- The world in which a script object is held besides. -/
def holdingInstance (w : World) (id : InstanceId) : World := { w with held := .instance id :: w.held }

/-- A script object that was made is alive while it is held. -/
theorem Made.binds (h : w.Made p t.id script id o) : (w.holdingInstance id).Binds o id := by
  obtain ⟨state, hstate, hbinding⟩ := h.object
  exact binds_of_mem_roots hstate hbinding (List.mem_append_left _ List.mem_cons_self)

/-- Whether the first object is the bridge of the first script object, idle and of a type that lists operations
with some slots, of which it is told which are private and which are the capability's, and whose table is as it was
at first. -/
def Bridges (w : World) (listed : List (Slot × Bool × Bool)) : Prop :=
  w.instances[0]?.map (·.bridge) = some valveObject ∧
  (w.types.proxy? ⟨4⟩).map (fun g => g.operations.map fun op =>
    (op.slot, op.modifiers.isPrivate, op.declaring == capabilityName)) = some listed ∧
  ((w.types.lookup? ⟨4⟩).bind (·.generated)).map (fun g => (g.operations.length, w.arrays[g.table.index]?)) =
    some (listed.length, some ((Array.range listed.length).map .operation)) ∧
  (w.platform .first).constructing = none

instance (w : World) (listed : List (Slot × Bool × Bool)) : Decidable (w.Bridges listed) :=
  inferInstanceAs (Decidable (_ ∧ _))

namespace Bridges

/-- An operation that is listed has its place in the table. -/
theorem operation (h : w.Bridges listed) {own capability : Bool} (hn : listed[n]? = some (slot, own, capability))
    (hid : ⟨4⟩ = t.id) : ∃ op, (w.types.proxy? t.id).bind (·.operations[n]?) = some op ∧ op.slot = slot ∧
      op.modifiers.isPrivate = own ∧ (op.declaring == capabilityName) = capability := by
  obtain ⟨-, hlists, -⟩ := h
  rw [hid] at hlists
  obtain ⟨g, hg, hslots⟩ := Option.map_eq_some_iff.1 hlists
  rw [← hslots, List.getElem?_map] at hn
  obtain ⟨op, hop, hfacts⟩ := Option.map_eq_some_iff.1 hn
  simp only [Prod.mk.injEq] at hfacts
  exact ⟨op, by rw [hg]; exact hop, hfacts⟩

/-- The table is as it was at first. -/
theorem keepsTable (h : w.Bridges listed) (hid : ⟨4⟩ = t.id) (hlookup : w.types.lookup? t.id = some t) :
    w.KeepsTable t := by
  obtain ⟨-, -, htable, -⟩ := h
  intro g hg
  rw [hid, hlookup, Option.bind_some, hg] at htable
  obtain ⟨hlength, harray⟩ := Prod.mk.inj (Option.some.inj htable)
  rw [harray, hlength]

/-- Nothing is under construction. -/
theorem idle (h : w.Bridges listed) (o : ObjectRef) : (w.platform .first).constructing ≠ some o := by
  obtain ⟨-, -, -, hidle⟩ := h
  rw [hidle]
  exact Option.some_ne_none o |>.symm

/-- The bridge of the script object is the first object. -/
theorem bridge (h : w.Bridges listed) (hmade : w.Made p t.id script ⟨0⟩ o) : o = valveObject := by
  obtain ⟨i, hi, -, rfl, -⟩ := hmade.instance
  obtain ⟨hbridge, -⟩ := h
  rw [hi] at hbridge
  exact Option.some.inj hbridge

end Bridges

end World

/-! ## A class whose operations hand a number on -/

/-- An operation that takes a floating number and whose body hands it on as a result of a type. -/
def relayMethod (name : String) (returns : ValueType) : Method :=
  ⟨name, [.primitive .double], returns, .public, "Gauge", ⟨2⟩, .native fun _ args => .done (args.headD .null)⟩

def relayPass : Method := relayMethod "pass" (.primitive .double)

def relayShow : Method := relayMethod "show" (.reference stringName)

/-- A class with an operation that gives the number back, one that shows it, and a constructor. -/
def relay : HostType :=
  { gauge [relayPass, relayShow] with constructors := [⟨[], .public, "Gauge", .inherited none⟩] }

/-- A function with a parameter that gives back what it received. -/
def relayFunction (name : String) : ScriptFunction :=
  .scripted name (some 1) fun _ _ args => .done (args.headD .null)

/-- A script type that overrides both operations. -/
def relayScript : ScriptType :=
  TypeTable.extendScript (relay :: TypeTable.initial) "Script" relay.id [] []
    [relayFunction "pass", relayFunction "show"]

/-- The world with the class, whose platform does not verify what it generates. -/
def relayWorld : World :=
  { World.initial { verifyCode := false } with types := relay :: TypeTable.initial }

theorem sane_relayWorld : relayWorld.Sane :=
  World.sane_of_types _ (numbered_gauge [relayPass, relayShow]) ⟨[relay], rfl⟩

/-- A floating number that is none, with a payload. -/
def payload : Value := .prim (.double 0x7ff4000000000123)

/-- Whether the script object is made, with its bridge, and a number is taken for a text once the code that
overwrites the table has run. -/
def World.HasRelay (w : World) : Prop :=
  (w.extendBy relayScript).1 = .ok (.ok ⟨0⟩) ∧
  (w.extendBy relayScript).2.Bridges [(capabilitySlot, false, true), (relayPass.slot, false, false),
    (relayShow.slot, false, false)] ∧
  (breakValve ((w.extendBy relayScript).2.holdingInstance ⟨0⟩)).1 = .ok .void ∧
  ((exec 30 6).invoke valveObject relayPass.slot [payload]
    (breakValve ((w.extendBy relayScript).2.holdingInstance ⟨0⟩)).2).1 =
    .error (.raised (.typeMismatch stringName "host.lang.Double"))

instance : DecidablePred World.HasRelay := fun _ => inferInstanceAs (Decidable (_ ∧ _))

/-- The script object is made in the world with the class. -/
theorem exists_hasRelay : ∃ w : World, w.HasRelay ∧
    (exec 30 6).extend .first relayScript [] [] relayWorld = (.ok (.ok ⟨0⟩), (w.extendBy relayScript).2) := by
  have hgenerate : ∃ w : World, World.generate ⟨.weave, false⟩ relay.id [] [] .system (some ⟨0⟩) relayWorld =
      (.ok ⟨4⟩, w) ∧ w.HasRelay := by
    apply World.exists_generate (P := World.HasRelay)
    · rfl
    · rfl
    · rw [TypeTable.harvestAbstract, TypeTable.harvest, TypeTable.interfaceList, TypeTable.extendFound]
      rfl
    · rfl
    · exact TypeTable.harvest_singleton rfl rfl rfl
    · apply exists_eq_ok_of_decide (P := fun w : World => World.HasRelay { w with installed := _ })
      decide +kernel
    · rfl
  obtain ⟨w, hw, h⟩ := hgenerate
  refine ⟨w, h, ?_⟩
  rw [← h.1]
  exact Runner.extend_apply_of_generate rfl rfl rfl hw

/-- The script type extends the class, which is there. -/
theorem declared_relayScript : relayScript.Declared relayWorld.types := by
  intro i hi
  obtain rfl : i = relay.id := by simpa [relayScript, TypeTable.extendScript] using hi
  decide

/-- A number that is none comes back with its payload. -/
theorem World.invoke_identity_payload : ∃ w,
    (exec 30 6).extend .first relayScript [] [] relayWorld = (.ok (.ok ⟨0⟩), w) ∧
    ((exec 22 3).invoke valveObject relayPass.slot [payload] (w.holdingInstance ⟨0⟩)).1 = .ok payload := by
  obtain ⟨w, ⟨-, hbridges, -⟩, hextend⟩ := exists_hasRelay
  refine ⟨_, hextend, ?_⟩
  obtain ⟨o, base, interfaces, properties, t, hmade, -, ht, hcalls⟩ :=
    World.invoke_identity sane_relayWorld (by decide) declared_relayScript hextend
  obtain rfl := hbridges.bridge hmade
  obtain ⟨e, older, w₀, b, hstands⟩ := ht.stands
  have hid : (⟨4⟩ : TypeId) = t.id := hmade.cls
  obtain ⟨op, hop, hslot, hprivate, hcapability⟩ := hbridges.operation (n := 1) rfl hid
  obtain ⟨hname, hreturns, hparams⟩ := Slot.mk.inj hslot
  obtain ⟨i, hi, -⟩ := hmade.instance
  rw [← hslot]
  refine hcalls (n := 1) (i := 0) (f := relayFunction "pass") 0 (.of_held _ _) (hbridges.keepsTable hid hstands.lookup)
    hmade.binds (hbridges.idle _) hop (by decide) (beq_eq_false_iff_ne.1 hcapability) hprivate ?_ ?_ ?_ ?_ rfl
    fun w' haside => ?_
  · rw [hparams]
    exact .cons rfl .nil
  · rw [hname]
    rfl
  · rw [hparams]
    decide
  · rw [hparams, hreturns]
    rfl
  · have hi' : w'.instances[0]? = some i := haside.instances ▸ hi
    simp only [exec, World.holding, Action.finally_, Runner.runTask, relayFunction, Action.bind_apply,
      Action.get_apply, hi']
    rfl

/-- Verified code below the subtype overwrites the number of an operation with that of another one, so that the
number which a function gives back is refused as a text. -/
theorem World.invoke_identity_differs : ∃ w w',
    (exec 30 6).extend .first relayScript [] [] relayWorld = (.ok (.ok ⟨0⟩), w) ∧
    breakValve (w.holdingInstance ⟨0⟩) = (.ok .void, w') ∧
    relayScript.taker? "pass" 1 = some (relayFunction "pass") ∧
    relayScript.taker? "show" 1 = some (relayFunction "show") ∧
    ((exec 30 6).invoke valveObject relayPass.slot [payload] w').1 =
      .error (.raised (.typeMismatch stringName "host.lang.Double")) := by
  obtain ⟨w, ⟨-, -, hbroken, hanswer⟩, hextend⟩ := exists_hasRelay
  exact ⟨(w.extendBy relayScript).2, _, hextend, Prod.ext hbroken rfl, rfl, rfl, hanswer⟩

end Interpose
