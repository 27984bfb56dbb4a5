import Interpose.Proofs.Furnishing
import Interpose.Proofs.Properties

/-!
# Properties as records

The accessors of a property are final methods of the bridge, which read and write a field of it. So no proxy takes
them over: a call of the slot of an accessor on an object of a subtype runs the method of the bridge, whatever
dispatcher the subtype has and whatever the object is bound to, and that starts no other task. However the properties
of an object are used, they behave like the fields of a record.
-/

namespace Interpose

open CodeBuilder (Continues)

/-! ## The bodies of accessors -/

namespace Action

variable {α : Type} {x : Action α}

/-- Whether a computation neither looks at nor changes what is held. -/
def IgnoresHeld (x : Action α) : Prop :=
  ∀ w held, x { w with held := held } = ((x w).1, { (x w).2 with held := held })

/-- Holding things makes no difference to such a computation. -/
theorem IgnoresHeld.holding (h : IgnoresHeld x) (hs : List Holder) : World.holding hs x = x := by
  funext w
  have hself : x w = ((x w).1, { (x w).2 with held := w.held }) := h w w.held
  rw [World.holding, finally_, h w (hs ++ w.held)]
  exact hself.symm

end Action

namespace World

/-- A world in which an object has a field set. -/
def stored (w : World) (o : ObjectRef) (name : String) (v : Value) : World :=
  { w with objects := w.objects.modify o.index fun s => { s with fields := setIn s.fields name v } }

variable {o : ObjectRef} {name : String} {v : Value}

theorem getField_apply (o : ObjectRef) (name : String) (w : World) : getField o name w =
    match (w.fieldsOf o).find? (·.1 == name) with
    | some f => (.ok f.2, w)
    | none => (.error (.raised (w.noSuchField o name)), w) := by
  rw [getField, Action.bind_apply_ok (Action.get_apply w)]
  cases (w.fieldsOf o).find? (·.1 == name) <;> rfl

theorem setField_apply (o : ObjectRef) (name : String) (v : Value) (w : World) : setField o name v w =
    match w.types.findField? (w.allocatedAs o) name with
    | none => (.error (.raised (w.noSuchField o name)), w)
    | some f => if w.types.accepts f.type v then (.ok (), w.stored o name v)
      else (.error (.raised (w.types.mismatch f.type.text v)), w) := by
  rw [setField, Action.bind_apply_ok (Action.get_apply w)]
  cases w.types.findField? (w.allocatedAs o) name with
  | none => rfl
  | some f =>
      dsimp only
      split <;> rfl

theorem ignoresHeld_getField (o : ObjectRef) (name : String) : Action.IgnoresHeld (getField o name) := by
  intro w held
  have hfields : ({ w with held := held } : World).fieldsOf o = w.fieldsOf o := rfl
  rw [getField_apply, getField_apply, hfields]
  cases (w.fieldsOf o).find? (·.1 == name) <;> rfl

theorem ignoresHeld_setField (o : ObjectRef) (name : String) (v : Value) :
    Action.IgnoresHeld (setField o name v >>= fun _ => pure Value.void) := by
  intro w held
  have hclass : ({ w with held := held } : World).allocatedAs o = w.allocatedAs o := rfl
  rw [Action.bind_apply, Action.bind_apply, setField_apply, setField_apply, hclass]
  dsimp only
  cases w.types.findField? (w.allocatedAs o) name with
  | none => rfl
  | some f =>
      dsimp only
      cases w.types.accepts f.type v <;> rfl

end World

namespace Emitter

variable {e : Emitter} {id : TypeId} {owner name : String} {p : PropertyPair} {d : MethodDef} {m : Method}
  {w : World} {this : ObjectRef} {steps : Nat} {v : Value}

/-- Running a getter reads the field of the property. -/
theorem runTask_propertyGetter (hd : Layer.propertyGetter owner p = .ok d) (hmade : e.method id name d = .ok m)
    (hparams : p.getter.params = []) (hdefined : w.isDefined this id = true) (hsteps : 3 ≤ steps) (run : Runner) :
    run.runTask steps (.method m this []) w = World.getField this p.fieldName w := by
  obtain ⟨code, hcode, hwithin, hsize, hlocals⟩ := Layer.exists_getterCode owner p
  cases hd.symm.trans hcode
  obtain ⟨unit, hunit, rfl⟩ := method_eq_ok.1 hmade
  have hrealizes := realizes_of_size_lt hunit (by rw [hsize]; decide)
  have hcount : ([] : List Value).length = p.getter.params.length := by
    rw [hparams]
    rfl
  have hframe : code.locals.toNat = ([] : List Value).length + 1 := by
    rw [hlocals]
    rfl
  refine (congrFun (Runner.runTask_compiled rfl ?_) w).trans ?_
  · exact hcount
  refine (Layer.run_of_ends (x := World.getField this p.fieldName) hrealizes hframe hdefined ?_
    (hsize ▸ hsteps)).trans (congrFun ((World.ignoresHeld_getField this p.fieldName).holding _) w)
  refine .load (v := .object this) hrealizes hwithin.of_emit.of_emitWith rfl ?_
  refine .getField hrealizes hwithin.of_emit rfl (fun _ _ h => h) fun u w' h => ?_
  rw [h]
  exact .retTop hrealizes hwithin rfl

/-- Running a setter stores the value in the field of the property. -/
theorem runTask_propertySetter (hd : Layer.propertySetter owner p = .ok d) (hmade : e.method id name d = .ok m)
    (hparams : p.setter.params.length = 1) (hdefined : w.isDefined this id = true) (hsteps : 4 ≤ steps)
    (run : Runner) : run.runTask steps (.method m this [v]) w =
      (World.setField this p.fieldName v >>= fun _ => pure Value.void) w := by
  obtain ⟨code, hcode, hwithin, hsize, hlocals⟩ := Layer.exists_setterCode owner p
  cases hd.symm.trans hcode
  obtain ⟨unit, hunit, rfl⟩ := method_eq_ok.1 hmade
  have hrealizes := realizes_of_size_lt hunit (by rw [hsize]; decide)
  have hcount : [v].length = p.setter.params.length := by rw [hparams, List.length_singleton]
  have hframe : code.locals.toNat = [v].length + 1 := by
    rw [hlocals]
    rfl
  refine (congrFun (Runner.runTask_compiled rfl ?_) w).trans ?_
  · exact hcount
  refine (Layer.run_of_ends (x := World.setField this p.fieldName v >>= fun _ => pure Value.void) hrealizes hframe
    hdefined ?_ (hsize ▸ hsteps)).trans (congrFun ((World.ignoresHeld_setField this p.fieldName v).holding _) w)
  have hput := hwithin.of_emit
  refine .load (v := .object this) hrealizes hput.of_emitWith.of_emit rfl ?_
  refine .load (v := v) hrealizes hput.of_emitWith rfl ?_
  refine .putField hrealizes hput rfl (fun e w' h => Action.bind_apply_error h) fun w' h => ?_
  rw [Action.bind_apply_ok h]
  exact .retVoid hrealizes hwithin

end Emitter

/-! ## What calls of accessors reach -/

/-- Properties of different names have different fields. -/
theorem PropertyPair.fieldName_inj {p q : PropertyPair} : p.fieldName = q.fieldName ↔ p.name = q.name := by
  rw [fieldName, fieldName, ← String.toList_inj, ← String.toList_inj, String.toList_append, String.toList_append,
    List.append_cancel_left_eq]

/-- Accessors of properties are not named like accessors of operations. -/
theorem Method.Accesses.not_marked {m : Method} {role : AccessorRole} {name : String} (h : m.Accesses role name) :
    ¬Naming.accessorMark.toList <+: m.name.toList := by
  cases h with
  | get rest hname | is rest hname | set rest hname => simp [Naming.accessorMark, hname]

/-- A getter has the slot of its operation and is final. -/
theorem Layer.propertyGetter_eq_ok {e : Emitter} {id : TypeId} {owner name : String} {p : PropertyPair} {d : MethodDef}
    {m : Method} (hd : propertyGetter owner p = .ok d) (hmade : e.method id name d = .ok m) :
    m.slot = p.getter.slot ∧ m.modifiers = ownModifiers := by
  obtain ⟨_, hcode, -⟩ := exists_getterCode owner p
  cases hd.symm.trans hcode
  obtain ⟨_, -, rfl⟩ := Emitter.method_eq_ok.1 hmade
  exact ⟨rfl, rfl⟩

/-- So is a setter. -/
theorem Layer.propertySetter_eq_ok {e : Emitter} {id : TypeId} {owner name : String} {p : PropertyPair} {d : MethodDef}
    {m : Method} (hd : propertySetter owner p = .ok d) (hmade : e.method id name d = .ok m) :
    m.slot = p.setter.slot ∧ m.modifiers = ownModifiers := by
  obtain ⟨_, hcode, -⟩ := exists_setterCode owner p
  cases hd.symm.trans hcode
  obtain ⟨_, -, rfl⟩ := Emitter.method_eq_ok.1 hmade
  exact ⟨rfl, rfl⟩

/-- Each property has a getter and a setter among the accessors. -/
theorem Layer.exists_of_propertyMethods {owner : String} {pairs : List PropertyPair} {p : PropertyPair}
    {defs : List MethodDef} (h : propertyMethods owner pairs = .ok defs) (hp : p ∈ pairs) :
    (∃ d ∈ defs, propertyGetter owner p = .ok d) ∧ ∃ d ∈ defs, propertySetter owner p = .ok d := by
  induction pairs generalizing defs with
  | nil => cases hp
  | cons q pairs ih =>
      obtain ⟨getter, hgetter, h⟩ := bind_eq_ok.1 h
      obtain ⟨setter, hsetter, h⟩ := bind_eq_ok.1 h
      obtain ⟨rest, hrest, h⟩ := bind_eq_ok.1 h
      rw [pure_eq_ok] at h
      subst h
      rcases List.mem_cons.1 hp with rfl | hp
      · exact ⟨⟨getter, List.mem_cons_self, hgetter⟩,
          ⟨setter, List.mem_cons_of_mem _ List.mem_cons_self, hsetter⟩⟩
      · obtain ⟨⟨d, hd, hmade⟩, d', hd', hmade'⟩ := ih hrest hp
        exact ⟨⟨d, List.mem_cons_of_mem _ (List.mem_cons_of_mem _ hd), hmade⟩,
          d', List.mem_cons_of_mem _ (List.mem_cons_of_mem _ hd'), hmade'⟩

section

variable {e : Emitter} {w w₀ : World} {older types : TypeTable} {base b t : HostType}
  {interfaces properties : List TypeId} {pairs : List PropertyPair} {p : PropertyPair} {m : Method}

/-- A bridge has a field for each property. -/
theorem Emitter.BuiltBridge.fields (h : e.BuiltBridge types base properties pairs b) :
    b.fields = pairs.map fun p => ⟨p.fieldName, p.type, .private⟩ := by
  obtain ⟨d, hd, hb⟩ := h.bridge
  obtain ⟨_, _, _, -, -, -, rfl⟩ := Layer.bridgeDef_eq_ok_iff.1 hd
  exact hb.fields

/-- A proxy has no fields. -/
theorem Emitter.Built.fields_proxy (h : e.Built types base interfaces properties pairs b t) : t.fields = [] := by
  obtain ⟨d, hd, ht⟩ := h.proxy
  obtain ⟨_, _, -, -, rfl⟩ := Layer.proxyDef_eq_ok_iff.1 hd
  exact ht.fields

/-- A bridge has the getter and the setter of each property. -/
theorem Emitter.BuiltBridge.exists_accessors (h : e.BuiltBridge types base properties pairs b) (hp : p ∈ pairs) :
    (∃ m ∈ b.methods, ∃ d, Layer.propertyGetter b.name p = .ok d ∧ e.method b.id b.name d = .ok m) ∧
    ∃ m ∈ b.methods, ∃ d, Layer.propertySetter b.name p = .ok d ∧ e.method b.id b.name d = .ok m := by
  obtain ⟨d, hd, hb⟩ := h.bridge
  obtain ⟨accessors, stubs, ctors, haccessors, -, -, rfl⟩ := Layer.bridgeDef_eq_ok_iff.1 hd
  have hname : b.name = Naming.layer base.name .bridge := hb.name
  rw [← hname] at haccessors
  have hmade {k : MethodDef} (hk : k ∈ accessors) : ∃ m ∈ b.methods, e.method b.id b.name k = .ok m :=
    exists_of_forall₂ hb.methods.flip (List.mem_append_left _ hk)
  obtain ⟨⟨g, hg, hgetter⟩, s, hs, hsetter⟩ := Layer.exists_of_propertyMethods haccessors hp
  obtain ⟨m, hm, hmethod⟩ := hmade hg
  obtain ⟨n, hn, hmethod'⟩ := hmade hs
  exact ⟨⟨m, hm, g, hgetter, hmethod⟩, n, hn, s, hsetter, hmethod'⟩

namespace World.Stands

variable (h : w.Stands e older w₀ base interfaces properties b t)
  (hbuilt : e.Built older base interfaces properties pairs b t)

include h hbuilt

/-- A proxy has no method of a slot that an accessor of a property has. -/
theorem slot_ne_of_claimed (hm : m ∈ b.methods) (hmodifiers : m.modifiers = Layer.ownModifiers)
    (hclaimed : m.slot ∈ pairs.flatMap fun p => [p.getter.slot, p.setter.slot]) :
    ∀ n ∈ t.methods, n.slot ≠ m.slot := by
  intro n hn hslot
  have hnumbered := h.numbered_layers
  rw [h.types] at hnumbered
  obtain ⟨d, hd, ht⟩ := hbuilt.proxy
  obtain ⟨methods, ctors, hmethods, -, rfl⟩ := Layer.proxyDef_eq_ok_iff.1 hd
  have hmem : m.slot ∈ t.methods.map (·.slot) := List.mem_map.2 ⟨n, hn, hslot⟩
  rw [ht.slots_eq] at hmem
  obtain ⟨s, hs, hsame⟩ := List.mem_flatMap.1 (Layer.slots_of_proxyMethods hmethods ▸ hmem)
  rcases List.mem_cons.1 hsame with rfl | hsame
  · -- what is taken over has no final declaration, but the accessor is one
    have hself : b ∈ TypeTable.lineage (b :: older) b.id := by
      rw [h.bridge.lineage_cons]
      exact List.mem_cons_self
    have hopen := (hnumbered.2.2.2.mem_slots_harvest.1 hs).2 m ⟨b, .inl hself, hm⟩ rfl
    rw [hmodifiers] at hopen
    cases hopen
  · have hmark := s.prefix_accessor
    rw [← List.mem_singleton.1 hsame] at hmark
    obtain ⟨p, hp, hmem⟩ := List.mem_flatMap.1 hclaimed
    have hpairs := TypeTable.pairs_of_harvestProperties hbuilt.paired
    rcases List.mem_cons.1 hmem with hgetter | hsetter
    · rw [hgetter] at hmark
      exact (Property.classify_eq_ok_iff.1 (hpairs.getter p hp).2.1).not_marked hmark
    · rw [List.mem_singleton.1 hsetter] at hmark
      exact (Property.classify_eq_ok_iff.1 (hpairs.setter p hp).2.1).not_marked hmark

/-- A call of a slot that an accessor of a property has reaches it. -/
theorem findVirtual?_of_claimed (hm : m ∈ b.methods) (hmodifiers : m.modifiers = Layer.ownModifiers)
    (hclaimed : m.slot ∈ pairs.flatMap fun p => [p.getter.slot, p.setter.slot]) :
    w.types.findVirtual? t.id m.slot = some m := by
  have hnone : t.methods.find? (fun n => n.isVirtual && n.occupies m.slot) = none := by
    refine List.find?_eq_none.2 fun n hn hreached => ?_
    exact h.slot_ne_of_claimed hbuilt hm hmodifiers hclaimed n hn (Method.and_occupies_iff.1 hreached).2
  have hvirtual : m.isVirtual = true := by
    rw [Method.isVirtual, hmodifiers]
    rfl
  obtain ⟨k, hk, hfound, hreached⟩ := exists_find?_of_mem (q := fun n => n.isVirtual && n.occupies m.slot) hm
    (Method.and_occupies_iff.2 ⟨hvirtual, rfl⟩)
  have hkm : k = m := List.inj_on_of_nodup_map h.bridge.slots hk hm (Method.and_occupies_iff.1 hreached).2
  subst hkm
  rw [TypeTable.findVirtual?, TypeTable.methodsOf, h.lineage_layers, List.flatMap_cons, List.flatMap_cons,
    List.append_assoc, List.append_assoc, List.find?_append, hnone, Option.none_or, List.find?_append, hfound,
    Option.some_or]

/-- The properties of a subtype are what its interfaces stand for, also later. -/
theorem harvestProperties_eq : w.types.harvestProperties properties = .ok pairs := by
  obtain ⟨new, hall, hnumbered, -⟩ := h.grown_base
  have hlayers := h.numbered_layers
  rw [h.types] at hlayers
  rw [hall, hnumbered.harvestProperties_append fun i hi => ?_, hbuilt.paired]
  exact h.bridge.named_lt hlayers.2.2.2 i (List.mem_append_left _ (Layer.mem_bridgeInterfaces.2 (.inr hi)))

/-- On objects of the subtype, the name of a field of the bridge stands for that field. -/
theorem findField?_eq (hp : p ∈ pairs) :
    w.types.findField? t.id p.fieldName = some ⟨p.fieldName, p.type, .private⟩ := by
  have hfields := hbuilt.fields
  have hpairs := TypeTable.pairs_of_harvestProperties hbuilt.paired
  obtain ⟨f, hf, hfound, hname⟩ := exists_find?_of_mem (q := fun f : Field => f.name == p.fieldName)
    (hfields ▸ List.mem_map_of_mem hp) (beq_self_eq_true _)
  rw [hfields] at hf
  obtain ⟨q, hq, rfl⟩ := List.mem_map.1 hf
  obtain rfl := hpairs.eq_of_name hq hp (PropertyPair.fieldName_inj.1 (beq_iff_eq.1 hname))
  rw [TypeTable.findField?, h.lineage_layers, List.flatMap_cons, List.flatMap_cons, hbuilt.fields_proxy, List.nil_append,
    List.find?_append, hfound, Option.some_or]

end World.Stands

end

/-! ## Uses of properties -/

/-- A way of running tasks in which a task is run as it says, and what it starts in a way that is given. -/
def Runner.deeper (run : Runner) (steps : Nat) : Runner :=
  fun task => World.holding task.holders (run.runTask steps task)

theorem exec_succ (steps depth : Nat) : exec steps (depth + 1) = (exec steps depth).deeper steps := rfl

/-- A use of a property. -/
inductive PropertyUse where
  | read (p : PropertyPair)
  | write (p : PropertyPair) (v : Value)

namespace PropertyUse

/-- The property that is used. -/
def pair : PropertyUse → PropertyPair
  | read p => p
  | write p _ => p

/-- The call of the accessor on an object. -/
def call (run : Runner) (o : ObjectRef) : PropertyUse → Action Value
  | read p => run.invoke o p.getter.slot []
  | write p v => run.invoke o p.setter.slot [v]

/-- The value that the property of a name is given: one that is written to it and that its type accepts. -/
def accepted? (types : TypeTable) (name : String) : PropertyUse → Option Value
  | read _ => none
  | write p v => if p.name = name ∧ types.accepts p.type v = true then some v else none

/-- The values of a record, by name, after a use of one of them. -/
def update (types : TypeTable) (values : String → Value) : PropertyUse → String → Value
  | read _ => values
  | write p v => if types.accepts p.type v = true then Function.update values p.name v else values

variable {types : TypeTable} {values : String → Value} {name : String}

theorem update_apply (u : PropertyUse) :
    u.update types values name = (u.accepted? types name).getD (values name) := by
  cases u with
  | read p => rfl
  | write p v =>
      rw [update, accepted?]
      by_cases haccepts : types.accepts p.type v = true
      · rw [if_pos haccepts]
        by_cases hname : p.name = name
        · rw [if_pos ⟨hname, haccepts⟩, ← hname, Function.update_self, Option.getD_some]
        · rw [if_neg fun h => hname h.1, Function.update_of_ne (Ne.symm hname), Option.getD_none]
      · rw [if_neg haccepts, if_neg fun h => haccepts h.2, Option.getD_none]

/-- A value of a record is the last that it was given, or what it was at the start. -/
theorem foldl_update_apply (uses : List PropertyUse) :
    uses.foldl (fun values u => u.update types values) values name =
      (uses.filterMap (·.accepted? types name)).getLast?.getD (values name) := by
  induction uses generalizing values with
  | nil => rfl
  | cons u uses ih =>
      rw [List.foldl_cons, ih, update_apply, List.filterMap_cons]
      cases u.accepted? types name with
      | none => rfl
      | some v => rw [List.getLast?_cons, Option.getD_some, Option.getD_some]

end PropertyUse

/-- The world after uses of the properties of an object. -/
def World.afterUses (w : World) (run : Runner) (o : ObjectRef) (uses : List PropertyUse) : World :=
  uses.foldl (fun w u => (u.call run o w).2) w

/-- Whether an object is one of a subtype with properties, whose fields have some values. -/
structure World.Records (w : World) (base : HostType) (interfaces properties : List TypeId) (t : HostType)
    (pairs : List PropertyPair) (o : ObjectRef) (values : String → Value) : Prop where
  subtype : w.HasSubtype base interfaces properties t
  paired : w.types.harvestProperties properties = .ok pairs
  cls : o.cls = t.id
  allocated : w.allocatedAs o = t.id
  values : ∀ p ∈ pairs, (w.fieldsOf o).find? (·.1 == p.fieldName) = some (p.fieldName, values p.name)

/-- Storing sets one field of the object. -/
theorem World.fieldsOf_stored (w : World) (o : ObjectRef) (name : String) (v : Value) :
    (w.stored o name v).fieldsOf o = setIn (w.fieldsOf o) name v := by
  rw [fieldsOf, fieldsOf, stored]
  dsimp only
  rw [Array.getElem?_modify, if_pos rfl]
  cases w.objects[o.index]? <;> rfl

/-- Storing leaves the class of the object. -/
theorem World.allocatedAs_stored (w : World) (o : ObjectRef) (name : String) (v : Value) :
    (w.stored o name v).allocatedAs o = w.allocatedAs o := by
  rw [allocatedAs, allocatedAs, stored]
  dsimp only
  rw [Array.getElem?_modify, if_pos rfl]
  cases w.objects[o.index]? <;> rfl

namespace World.Records

variable {w : World} {base t : HostType} {interfaces properties : List TypeId} {pairs : List PropertyPair}
  {o : ObjectRef} {values : String → Value} {steps : Nat} {p : PropertyPair} {v : Value}
  {u : PropertyUse}
  (h : w.Records base interfaces properties t pairs o values)

include h

/-- The layers of the subtype of a record. -/
theorem exists_built : ∃ e older w₀ b, w.Stands e older w₀ base interfaces properties b t ∧
    e.Built older base interfaces properties pairs b t := by
  obtain ⟨e, older, w₀, pairs', b, hstands, hbuilt⟩ := h.subtype.built
  cases h.paired.symm.trans (hstands.harvestProperties_eq hbuilt)
  exact ⟨e, older, w₀, b, hstands, hbuilt⟩

/-- A call of the slot of an accessor runs it. -/
theorem invoke_of_accessor {e : Emitter} {older : TypeTable} {w₀ : World} {b : HostType} {m : Method}
    {args : List Value} {x : Action Value} (run : Runner)
    (hstands : w.Stands e older w₀ base interfaces properties b t)
    (hbuilt : e.Built older base interfaces properties pairs b t) (hm : m ∈ b.methods)
    (hmodifiers : m.modifiers = Layer.ownModifiers)
    (hclaimed : m.slot ∈ pairs.flatMap fun p => [p.getter.slot, p.setter.slot]) (hx : x.IgnoresHeld)
    (hrun : ∀ w : World, w.isDefined o b.id = true → run.runTask steps (.method m o args) w = x w) :
    (run.deeper steps).invoke o m.slot args w = x w := by
  have hfound := hstands.findVirtual?_of_claimed hbuilt hm hmodifiers hclaimed
  have hinvoke : (run.deeper steps).invoke o m.slot args w =
      World.holding (Holder.ofCall o args) (run.runTask steps (.method m o args)) w := by
    rw [Runner.invoke, Action.bind_apply_ok (Action.get_apply w), h.cls]
    simp only [hfound]
    rfl
  rw [hinvoke, Action.holding_congr (hrun _ (isDefined_of_mem_lineage (h.cls ▸ hstands.bridge_mem_lineage))),
    hx.holding]

/-- Reading a property reads its field. -/
theorem call_read (run : Runner) (hp : p ∈ pairs) (hsteps : 3 ≤ steps) :
    (PropertyUse.read p).call (run.deeper steps) o w = (.ok (values p.name), w) := by
  obtain ⟨e, older, w₀, b, hstands, hbuilt⟩ := h.exists_built
  have hpairs := TypeTable.pairs_of_harvestProperties hbuilt.paired
  obtain ⟨⟨m, hm, d, hd, hmade⟩, -⟩ := hbuilt.exists_accessors hp
  have hparams := Property.params_of_getter (hpairs.getter p hp).2.1
  obtain ⟨hslot, hmodifiers⟩ := Layer.propertyGetter_eq_ok hd hmade
  have hclaimed : m.slot ∈ pairs.flatMap fun p => [p.getter.slot, p.setter.slot] :=
    hslot ▸ List.mem_flatMap.2 ⟨p, hp, List.mem_cons_self⟩
  have hcall := h.invoke_of_accessor (x := getField o p.fieldName) run hstands hbuilt hm hmodifiers hclaimed
    (ignoresHeld_getField o p.fieldName) fun w hdefined =>
      Emitter.runTask_propertyGetter hd hmade hparams hdefined hsteps run
  rw [PropertyUse.call, ← hslot, hcall, getField_apply, h.values p hp]

/-- Writing a property stores the value in its field, or fails if the type does not accept it. -/
theorem call_write (run : Runner) (hp : p ∈ pairs) (hsteps : 4 ≤ steps) (v : Value) :
    (PropertyUse.write p v).call (run.deeper steps) o w =
      if w.types.accepts p.type v = true then (.ok .void, w.stored o p.fieldName v)
      else (.error (.raised (w.types.mismatch p.type.text v)), w) := by
  obtain ⟨e, older, w₀, b, hstands, hbuilt⟩ := h.exists_built
  have hpairs := TypeTable.pairs_of_harvestProperties hbuilt.paired
  obtain ⟨-, m, hm, d, hd, hmade⟩ := hbuilt.exists_accessors hp
  have hparams : p.setter.params.length = 1 := by rw [(hpairs.setter p hp).2.2, List.length_singleton]
  obtain ⟨hslot, hmodifiers⟩ := Layer.propertySetter_eq_ok hd hmade
  have hclaimed : m.slot ∈ pairs.flatMap fun p => [p.getter.slot, p.setter.slot] :=
    hslot ▸ List.mem_flatMap.2 ⟨p, hp, List.mem_cons_of_mem _ List.mem_cons_self⟩
  have hcall := h.invoke_of_accessor (x := setField o p.fieldName v >>= fun _ => pure Value.void) run hstands hbuilt hm
    hmodifiers hclaimed (ignoresHeld_setField o p.fieldName v) fun w hdefined =>
      Emitter.runTask_propertySetter hd hmade hparams hdefined hsteps run
  rw [PropertyUse.call, ← hslot, hcall, Action.bind_apply, setField_apply, h.allocated, hstands.findField?_eq hbuilt hp]
  dsimp only
  cases w.types.accepts p.type v <;> rfl

/-- Storing a value that a property accepts gives a record with that value. -/
theorem stored (hp : p ∈ pairs) (v : Value) : (w.stored o p.fieldName v).Records base interfaces properties t pairs o
    (Function.update values p.name v) where
  subtype := h.subtype.grown List.suffix_rfl h.subtype.numbered
  paired := h.paired
  cls := h.cls
  allocated := (allocatedAs_stored w o p.fieldName v).trans h.allocated
  values q hq := by
    rw [fieldsOf_stored]
    by_cases hname : q.name = p.name
    · rw [PropertyPair.fieldName_inj.2 hname, hname, Function.update_self]
      exact find?_setIn_self (h.values p hp)
    · rw [Function.update_of_ne hname, find?_setIn_ne (mt PropertyPair.fieldName_inj.1 hname), h.values q hq]

/-- A use of a property does to the object what it does to a record. -/
theorem call (run : Runner) (hu : u.pair ∈ pairs) (hsteps : 4 ≤ steps) :
    (u.call (run.deeper steps) o w).2.Records base interfaces properties t pairs o (u.update w.types values) ∧
      (u.call (run.deeper steps) o w).2.types = w.types := by
  cases u with
  | read p =>
      have hp : p ∈ pairs := hu
      rw [h.call_read run hp (Nat.le_of_succ_le hsteps)]
      exact ⟨h, rfl⟩
  | write p v =>
      have hp : p ∈ pairs := hu
      rw [h.call_write run hp hsteps, PropertyUse.update]
      split
      · exact ⟨h.stored hp v, rfl⟩
      · exact ⟨h, rfl⟩

/-- So do all uses one after the other. -/
theorem afterUses (run : Runner) {uses : List PropertyUse} (huses : ∀ u ∈ uses, u.pair ∈ pairs) (hsteps : 4 ≤ steps) :
    (w.afterUses (run.deeper steps) o uses).Records base interfaces properties t pairs o
        (uses.foldl (fun values u => u.update w.types values) values) ∧
      (w.afterUses (run.deeper steps) o uses).types = w.types := by
  induction uses generalizing w values with
  | nil => exact ⟨h, rfl⟩
  | cons u uses ih =>
      obtain ⟨hu, huses⟩ := List.forall_mem_cons.1 huses
      obtain ⟨hnext, htypes⟩ := h.call run hu hsteps
      obtain ⟨hrecords, hsame⟩ := ih hnext huses
      rw [htypes] at hrecords hsame
      exact ⟨hrecords, hsame⟩

end World.Records

/-- A furnished object of a subtype with properties has a value for each of them. -/
theorem World.HasSubtype.exists_records {w : World} {base t : HostType} {interfaces properties : List TypeId}
    {pairs : List PropertyPair} {o : ObjectRef} {s : ObjectState} (h : w.HasSubtype base interfaces properties t)
    (hpairs : w.types.harvestProperties properties = .ok pairs) (hcls : o.cls = t.id)
    (hobject : w.objects[o.index]? = some s) (hstate : s.cls = t.id) (hfurnished : s.Furnished w.types) :
    ∃ values, w.Records base interfaces properties t pairs o values := by
  obtain ⟨e, older, w₀, pairs', b, hstands, hbuilt⟩ := h.built
  cases hpairs.symm.trans (hstands.harvestProperties_eq hbuilt)
  have hfields : w.fieldsOf o = s.fields := by rw [World.fieldsOf, hobject]
  have hallocated : w.allocatedAs o = t.id := by
    rw [World.allocatedAs, hobject]
    exact hstate
  refine ⟨fun name => (((w.fieldsOf o).find? (·.1 == "$__" ++ name)).map (·.2)).getD .null, h, hpairs, hcls,
    hallocated, fun p hp => ?_⟩
  have hdeclared : ∃ f ∈ (w.types.lineage s.cls).flatMap (·.fields), f.name = p.fieldName := by
    have hfound := hstands.findField?_eq hbuilt hp
    rw [TypeTable.findField?] at hfound
    exact ⟨_, hstate ▸ List.mem_of_find?_eq_some hfound, rfl⟩
  obtain ⟨v, hv⟩ := hfurnished.exists_field hdeclared
  rw [hfields, hv]
  change _ = some (p.fieldName, ((s.fields.find? (·.1 == p.fieldName)).map (·.2)).getD .null)
  rw [hv]
  rfl

/-- **Records.** On an object of a subtype with properties, whatever the subtype has for a dispatcher and whatever the
object is bound to, and however the accessors of the properties were called before: a getter returns the last value
that was written to its property and that the type of the property accepts, or the value that the field had at the
start. A setter stores its value in the field of its property, and nothing else, if the type accepts it, and otherwise
fails and changes nothing; no other getter returns anything else afterwards. All this holds in whatever way the
tasks are run that an accessor starts, so it starts none, and asks no dispatcher. -/
theorem World.HasSubtype.behaves_as_record {w : World} {base t : HostType} {interfaces properties : List TypeId}
    {pairs : List PropertyPair} {o : ObjectRef} {s : ObjectState} {steps : Nat}
    (h : w.HasSubtype base interfaces properties t) (hpairs : w.types.harvestProperties properties = .ok pairs)
    (hcls : o.cls = t.id) (hobject : w.objects[o.index]? = some s) (hstate : s.cls = t.id)
    (hfurnished : s.Furnished w.types) (hsteps : 4 ≤ steps) (run : Runner) :
    ∃ start : String → Value, (∀ p ∈ pairs, World.getField o p.fieldName w = (.ok (start p.name), w)) ∧
      ∀ uses : List PropertyUse, (∀ u ∈ uses, u.pair ∈ pairs) → ∀ w', w' = w.afterUses (run.deeper steps) o uses →
        ∀ p ∈ pairs,
          (PropertyUse.read p).call (run.deeper steps) o w' =
            (.ok ((uses.filterMap (·.accepted? w.types p.name)).getLast?.getD (start p.name)), w') ∧
          ∀ v, (w.types.accepts p.type v = true → (PropertyUse.write p v).call (run.deeper steps) o w' =
              (.ok .void, w'.stored o p.fieldName v)) ∧
            (w.types.accepts p.type v = false → (PropertyUse.write p v).call (run.deeper steps) o w' =
              (.error (.raised (w.types.mismatch p.type.text v)), w')) ∧
            ∀ q ∈ pairs, q.name ≠ p.name → ((PropertyUse.read q).call (run.deeper steps) o
              ((PropertyUse.write p v).call (run.deeper steps) o w').2).1 =
                ((PropertyUse.read q).call (run.deeper steps) o w').1 := by
  obtain ⟨start, hstart⟩ := h.exists_records hpairs hcls hobject hstate hfurnished
  refine ⟨start, fun p hp => ?_, fun uses huses w' hw' p hp => ?_⟩
  · rw [getField_apply, hstart.values p hp]
  obtain ⟨hrecords, htypes⟩ := hstart.afterUses run huses hsteps
  rw [← hw'] at hrecords htypes
  have hread {q : PropertyPair} (hq : q ∈ pairs) := hrecords.call_read run hq (Nat.le_of_succ_le hsteps)
  have hwrite (v : Value) := hrecords.call_write run hp hsteps v
  rw [htypes] at hwrite
  refine ⟨by rw [hread hp, PropertyUse.foldl_update_apply], fun v => ⟨fun haccepts => ?_, fun hrefuses => ?_,
    fun q hq hne => ?_⟩⟩
  · rw [hwrite, if_pos haccepts]
  · rw [hwrite, if_neg (Bool.eq_false_iff.1 hrefuses)]
  · rw [hread hq, hwrite]
    split
    · rw [(hrecords.stored hp v).call_read run hq (Nat.le_of_succ_le hsteps), Function.update_of_ne hne]
    · rw [hread hq]

/-- The property of the interface holds texts. -/
theorem type_of_named {pairs : List PropertyPair} {p : PropertyPair}
    (hpairs : badgeWorld.types.harvestProperties [named.id] = .ok pairs) (hp : p ∈ pairs) :
    p.type = .reference stringName := by
  have h := TypeTable.pairs_of_harvestProperties hpairs
  obtain ⟨hmem, hrole, htype⟩ := h.getter p hp
  have hparams := Property.params_of_getter hrole
  have hall : ∀ m ∈ badgeWorld.types.propertyMethods [named.id], m.params = [] → m.returns = .reference stringName := by
    decide
  rw [← htype, hall p.getter hmem hparams]

/-- An object of the subtype of the class has the name that was written last and accepted, with no way at all to run
what the accessors would start. -/
theorem World.HasSubtype.behaves_as_record_badge : ∃ (w : World) (t : HostType) (o : ObjectRef) (p : PropertyPair),
    w.HasSubtype badge [] [named.id] t ∧ o.cls = t.id ∧
    ((PropertyUse.read p).call (exec 4 1) o (w.afterUses (exec 4 1) o
      [.write p (.str "Ann"), .write p (.ofInt32 1)])).1 = .ok (.str "Ann") := by
  obtain ⟨pairs, hpairs⟩ := exists_pairs_named
  have hdeclared : ∀ i ∈ [] ++ [named.id], i.index < badgeWorld.types.length := by decide
  have hbase : badgeWorld.types.lookup? badge.id = some badge := rfl
  obtain ⟨w₁, hgenerate⟩ := exists_generate_of_fits ⟨.weave, true⟩ .system ⟨0⟩ sane_badgeWorld.numbered
    sane_badgeWorld.start hbase hdeclared (modest_badge _).fits (fun i hi t ht => by
      obtain rfl := List.mem_singleton.1 hi
      cases ht
      rfl) hpairs (.inr ⟨by decide, by decide⟩) rfl
  obtain ⟨t, -, ht, hlookup, -⟩ := exists_hasSubtype sane_badgeWorld.numbered sane_badgeWorld.start hbase (by nofun)
    (by decide) hgenerate
  obtain ⟨w₀, _, b, t', hlayers, -, -, htypes⟩ := layers_of_generate hbase hgenerate
  have hgrown : w₁.types = [t', b] ++ badgeWorld.types := by rw [htypes, hlayers.types]; rfl
  have hnumbered : TypeTable.Numbered ([t', b] ++ badgeWorld.types) := hgrown ▸ ht.numbered
  have hpairs₁ : w₁.types.harvestProperties [named.id] = .ok pairs := by
    rw [hgrown, hnumbered.harvestProperties_append (by decide), hpairs]
  -- the object is the last of the world
  let s : ObjectState := ⟨t.id, w₁.types.initialFields t.id, .unbound⟩
  let w : World := { w₁ with objects := w₁.objects.push s }
  have hsubtype : w.HasSubtype badge [] [named.id] t := ht.grown List.suffix_rfl ht.numbered
  have hfurnished : s.Furnished w.types := .new (ht.numbered.index_lt (TypeTable.mem_of_lookup? hlookup).1)
  obtain ⟨p, hp, -⟩ : ∃ p ∈ pairs, p.name = "name" := (TypeTable.pairs_of_harvestProperties hpairs).exists_name_iff.2
    ⟨_, TypeTable.mem_propertyMethods.2 ⟨named.id, List.mem_singleton_self _, named, rfl, List.mem_cons_self, rfl⟩,
      .getter, .get "Name" rfl (by decide) rfl nofun⟩
  obtain ⟨start, -, hbehaves⟩ := hsubtype.behaves_as_record hpairs₁ (o := ⟨w₁.objects.size, t.id⟩) rfl
    Array.getElem?_push_size rfl hfurnished (Nat.le_refl 4) (exec 4 0)
  obtain ⟨hread, -⟩ := hbehaves [.write p (.str "Ann"), .write p (.ofInt32 1)]
    (List.forall_mem_cons.2 ⟨hp, List.forall_mem_singleton.2 hp⟩) _ rfl p hp
  refine ⟨w, t, ⟨w₁.objects.size, t.id⟩, p, hsubtype, rfl, ?_⟩
  have haccepted : ([PropertyUse.write p (.str "Ann"), .write p (.ofInt32 1)].filterMap
      (·.accepted? w.types p.name)) = [.str "Ann"] := by
    have htext : w.types.accepts (.reference stringName) (.str "Ann") = true := rfl
    have hnumber : w.types.accepts (.reference stringName) (.ofInt32 1) = false := rfl
    simp [PropertyUse.accepted?, type_of_named hpairs hp, htext, hnumber]
  rw [haccepted, ← exec_succ] at hread
  exact congrArg Prod.fst hread

end Interpose
