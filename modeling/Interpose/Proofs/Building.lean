import Interpose.Proofs.Acceptance
import Interpose.Proofs.Pairing
import Interpose.Proofs.Reachability
import Interpose.Proofs.Subtypes

/-!
# What the layers of a subtype are built from

Each layer is built from a definition that was checked: one method for each of the definition, one
constructor for each that subclasses of the superclass reach. The bridge has the accessors of its
properties, which are final, and a stub for each other abstract operation of the base.
-/

namespace Interpose

/-! ## Types that are built -/

namespace Emitter

variable {e : Emitter} {w w' : World} {d : ClassDef} {t : HostType} {loader : Loader} {id : TypeId}

/-- Whether a type is what a definition comes to that passes its checks on a table of types. -/
structure Defines (e : Emitter) (types : TypeTable) (d : ClassDef) (t : HostType) : Prop where
  valid : d.validate types = .ok ()
  takes : ∀ c ∈ d.codes, e.Takes c
  id : t.id = types.fresh
  name : t.name = d.name
  kind : t.kind = .cls
  modifiers : t.modifiers = d.modifiers
  superclass : t.superclass = some d.superclass
  interfaces : t.interfaces = d.interfaces
  fields : t.fields = d.fields
  constructors : d.ctors.mapM (e.ctor t.id t.name) = .ok t.constructors
  methods : List.Forall₂ (fun m m' => e.method t.id t.name m = .ok m') d.methods t.methods

/-- What a type that was defined has is declared by it. -/
theorem Defines.declaring_eq {e : Emitter} {types : TypeTable} {d : ClassDef} {t : HostType} {m : Method}
    (h : e.Defines types d t) (hm : m ∈ t.methods) : m.declaring = t.name := by
  obtain ⟨_, -, hmade⟩ := exists_of_forall₂ h.methods hm
  obtain ⟨_, -, rfl⟩ := method_eq_ok.1 hmade
  rfl

/-- A list of code is verified if each piece is. -/
theorem verifyAll_eq_ok {codes : List Code} :
    ClassDef.verifyAll codes = .ok () ↔ ∀ c ∈ codes, ∃ deepest, c.verify = .ok deepest := by
  induction codes with
  | nil => exact ⟨fun _ => nofun, fun _ => rfl⟩
  | cons c codes ih =>
      rw [ClassDef.verifyAll, List.forall_mem_cons, ← ih]
      cases c.verify with
      | error fault => exact ⟨nofun, fun h => absurd h.1 nofun⟩
      | ok deepest => exact ⟨fun h => ⟨⟨deepest, rfl⟩, h⟩, fun h => h.2⟩

/-- A definition that succeeds passed its checks, and the type that it comes to is added. -/
theorem defines_of_define (h : e.define w d loader = .ok (id, w')) :
    ∃ t arrays, e.Defines w.types d t ∧ id = t.id ∧
      w' = { w with types := t :: w.types, arrays := arrays } := by
  obtain ⟨hvalid, hverified, hid, ctors, methods, hctors, hmethods, hw⟩ := define_eq_ok h
  have himage {c : Code} {owner : TypeId} {unit : CompiledBody} (hunit : e.body owner c = .ok unit) :
      ∃ image, e.image c = .ok image := by
    obtain ⟨image, himage, -⟩ := map_eq_ok.1 hunit
    exact ⟨image, himage⟩
  have htakes : ∀ c ∈ d.codes, e.Takes c := by
    refine fun c hc => ⟨fun hverify => verifyAll_eq_ok.1 (hverified hverify) c hc, ?_⟩
    rcases List.mem_append.1 hc with hc | hc
    · obtain ⟨k, hk, rfl⟩ := List.mem_map.1 hc
      obtain ⟨_, -, hmade⟩ := exists_of_forall₂ hctors.flip hk
      obtain ⟨_, hunit, -⟩ := map_eq_ok.1 hmade
      exact himage hunit
    · obtain ⟨k, hk, rfl⟩ := List.mem_map.1 hc
      obtain ⟨_, -, hmade⟩ := exists_of_forall₂ hmethods.flip hk
      obtain ⟨_, hunit, -⟩ := map_eq_ok.1 hmade
      exact himage hunit
  have hdefines {generated : Option Generation} : e.Defines w.types d
      ⟨id, d.name, .cls, d.modifiers, some d.superclass, d.interfaces, methods, ctors, d.fields, loader,
        generated⟩ :=
    ⟨hvalid, htakes, hid, rfl, rfl, rfl, rfl, rfl, rfl, mapM_eq_ok.2 hctors, hmethods⟩
  cases hgenerated : d.generated with
  | none =>
      rw [hgenerated] at hw
      exact ⟨_, w.arrays, hdefines, rfl, hw⟩
  | some g =>
      rw [hgenerated] at hw
      exact ⟨_, _, hdefines, rfl, hw⟩

/-- A definition succeeds if it passes its checks. -/
theorem exists_define (hvalid : d.validate w.types = .ok ()) (htakes : ∀ c ∈ d.codes, e.Takes c)
    (loader : Loader) : ∃ r, e.define w d loader = .ok r := by
  have hbody (owner : TypeId) {c : Code} (hc : c ∈ d.codes) : ∃ unit, e.body owner c = .ok unit := by
    obtain ⟨-, image, himage⟩ := htakes c hc
    exact ⟨_, map_eq_ok.2 ⟨image, himage, rfl⟩⟩
  obtain ⟨ctors, hctors⟩ : ∃ ctors, d.ctors.mapM (e.ctor w.types.fresh d.name) = .ok ctors := by
    refine exists_mapM fun c hc => ?_
    obtain ⟨unit, hunit⟩ := hbody w.types.fresh (List.mem_append_left _ (List.mem_map_of_mem hc))
    exact ⟨_, map_eq_ok.2 ⟨unit, hunit, rfl⟩⟩
  obtain ⟨methods, hmethods⟩ : ∃ methods, d.methods.mapM (e.method w.types.fresh d.name) = .ok methods := by
    refine exists_mapM fun m hm => ?_
    obtain ⟨unit, hunit⟩ := hbody w.types.fresh (List.mem_append_right _ (List.mem_map_of_mem hm))
    exact ⟨_, map_eq_ok.2 ⟨unit, hunit, rfl⟩⟩
  rw [define]
  refine exists_bind hvalid ?_
  by_cases hverify : e.verify = true
  · rw [if_pos hverify]
    refine exists_bind (verifyAll_eq_ok.2 fun c hc => (htakes c hc).1 hverify) ?_
    exact exists_bind hctors (exists_bind hmethods ⟨_, rfl⟩)
  · rw [if_neg hverify]
    exact exists_bind hctors (exists_bind hmethods ⟨_, rfl⟩)

/-- Methods have the slots that they are defined with. -/
theorem Defines.slots_eq {types : TypeTable} (h : e.Defines types d t) :
    t.methods.map (·.slot) = d.methods.map (·.slot) :=
  slots_of_forall₂ h.methods

end Emitter

/-! ## Definitions of layers -/

/-- No layer has a name without underscores. -/
theorem Naming.layer_ne {base name : String} {role : Role} (hplain : '_' ∉ name.toList) : layer base role ≠ name := by
  rintro rfl
  refine hplain ?_
  rw [layer]
  dsimp only
  split
  all_goals simp [String.toList_append]

namespace Layer

variable {types : TypeTable} {base bridge : HostType} {abstracts : List Method} {pairs : List PropertyPair}
  {properties requested : List TypeId} {d : ClassDef} {owner : String}

/-- What the bridge of a base extends. -/
def bridgeSuperclass (base : HostType) : TypeId := if base.isInterface then .root else base.id

/-- The interfaces of the bridge of a base. -/
def bridgeInterfaces (base : HostType) (properties : List TypeId) : List TypeId :=
  if base.isInterface then base.id :: properties else properties

theorem mem_bridgeInterfaces {i : TypeId} :
    i ∈ bridgeInterfaces base properties ↔ (base.isInterface = true ∧ i = base.id) ∨ i ∈ properties := by
  rw [bridgeInterfaces]
  split
  · rename_i hinterface
    rw [List.mem_cons, and_iff_right hinterface]
  · rename_i hclass
    rw [or_iff_right fun h => hclass h.1]

/-- The constructors of a layer on a class. -/
def ctorsOver (types : TypeTable) (owner : String) (superclass : TypeId) :
    Except EmitError (List CtorDef) :=
  match types.lookup? superclass with
  | some t => forwardingCtors owner t
  | none => .ok []

/-- A bridge is defined exactly if its methods and its constructors are. -/
theorem bridgeDef_eq_ok_iff : bridgeDef types base abstracts pairs properties = .ok d ↔
    ∃ accessors stubs ctors, propertyMethods (Naming.layer base.name .bridge) pairs = .ok accessors ∧
      (abstracts.filter fun op => !isClaimed pairs op).mapM (stub (Naming.layer base.name .bridge)) =
        .ok stubs ∧
      ctorsOver types (Naming.layer base.name .bridge) (bridgeSuperclass base) = .ok ctors ∧
      d = ⟨Naming.layer base.name .bridge, .public, bridgeSuperclass base, bridgeInterfaces base properties,
        pairs.map fun p => ⟨p.fieldName, p.type, .private⟩, ctors, accessors ++ stubs,
        some ⟨.bridge, base.id, [], []⟩⟩ := by
  have hsteps : bridgeDef types base abstracts pairs properties = (do
      let accessors ← propertyMethods (Naming.layer base.name .bridge) pairs
      let stubs ← (abstracts.filter fun op => !isClaimed pairs op).mapM
        (stub (Naming.layer base.name .bridge))
      let ctors ← ctorsOver types (Naming.layer base.name .bridge) (bridgeSuperclass base)
      return ⟨Naming.layer base.name .bridge, .public, bridgeSuperclass base,
        bridgeInterfaces base properties, pairs.map fun p => ⟨p.fieldName, p.type, .private⟩, ctors,
        accessors ++ stubs, some ⟨.bridge, base.id, [], []⟩⟩) := by
    rw [bridgeDef, ctorsOver, bridgeSuperclass]
    dsimp only
    cases types.lookup? (if base.isInterface = true then .root else base.id) <;> rfl
  rw [hsteps]
  simp only [bind_eq_ok, pure_eq_ok]
  constructor
  · rintro ⟨accessors, haccessors, stubs, hstubs, ctors, hctors, rfl⟩
    exact ⟨accessors, stubs, ctors, haccessors, hstubs, hctors, rfl⟩
  · rintro ⟨accessors, stubs, ctors, haccessors, hstubs, hctors, rfl⟩
    exact ⟨accessors, haccessors, stubs, hstubs, ctors, hctors, rfl⟩

/-- A proxy is defined exactly if its methods and its constructors are. -/
theorem proxyDef_eq_ok_iff {operations : List Method} :
    proxyDef types bridge base operations requested = .ok d ↔
    ∃ methods ctors, proxyMethods types (Naming.layer base.name .proxy) bridge.id 0 operations =
        .ok methods ∧
      forwardingCtors (Naming.layer base.name .proxy) bridge = .ok ctors ∧
      d = ⟨Naming.layer base.name .proxy, .public, bridge.id, requested ++ [.capability], [], ctors, methods,
        some ⟨.proxy, base.id, operations, requested⟩⟩ := by
  rw [proxyDef]
  simp only [bind_eq_ok, pure_eq_ok]
  constructor
  · rintro ⟨methods, hmethods, ctors, hctors, rfl⟩
    exact ⟨methods, ctors, hmethods, hctors, rfl⟩
  · rintro ⟨methods, ctors, hmethods, hctors, rfl⟩
    exact ⟨methods, hmethods, ctors, hctors, rfl⟩

/-- The accessors of properties have the slots of the operations that they stand for. -/
theorem slots_of_propertyMethods {defs : List MethodDef} (h : propertyMethods owner pairs = .ok defs) :
    defs.map (·.slot) = pairs.flatMap fun p => [p.getter.slot, p.setter.slot] := by
  induction pairs generalizing defs with
  | nil =>
      cases h
      rfl
  | cons p pairs ih =>
      obtain ⟨getter, hgetter, h⟩ := bind_eq_ok.1 h
      obtain ⟨setter, hsetter, h⟩ := bind_eq_ok.1 h
      obtain ⟨rest, hrest, h⟩ := bind_eq_ok.1 h
      rw [pure_eq_ok] at h
      subst h
      obtain ⟨_, -, hgetter⟩ := bind_eq_ok.1 hgetter
      rw [pure_eq_ok] at hgetter
      obtain ⟨_, -, hsetter⟩ := bind_eq_ok.1 hsetter
      rw [pure_eq_ok] at hsetter
      rw [List.map_cons, List.map_cons, ih hrest, ← hgetter, ← hsetter]
      rfl

/-- An operation is claimed exactly if an accessor has its slot. -/
theorem isClaimed_iff {op : Method} : isClaimed pairs op = true ↔
    op.slot ∈ pairs.flatMap fun p => [p.getter.slot, p.setter.slot] := by
  rw [isClaimed, List.any_eq_true, List.mem_flatMap]
  refine exists_congr fun p => and_congr_right fun _ => ?_
  rw [Bool.or_eq_true, beq_iff_eq, beq_iff_eq, List.mem_cons, List.mem_singleton, eq_comm,
    eq_comm (a := p.setter.slot)]

end Layer

/-! ## Both layers -/

variable {e : Emitter} {w w' : World} {types : TypeTable} {base b t : HostType}
  {interfaces properties : List TypeId} {pairs : List PropertyPair} {m : Method}

/-- What a bridge is built from, on a table of types. -/
structure Emitter.BuiltBridge (e : Emitter) (types : TypeTable) (base : HostType) (properties : List TypeId)
    (pairs : List PropertyPair) (b : HostType) : Prop where
  paired : types.harvestProperties properties = .ok pairs
  bridge : ∃ d, Layer.bridgeDef types base (types.harvestAbstract base.id properties) pairs properties =
    .ok d ∧ e.Defines types d b

/-- What both layers of a subtype are built from. -/
structure Emitter.Built (e : Emitter) (types : TypeTable) (base : HostType)
    (interfaces properties : List TypeId) (pairs : List PropertyPair) (b t : HostType) : Prop extends
    e.BuiltBridge types base properties pairs b where
  proxy : ∃ d, Layer.proxyDef (b :: types) b base (TypeTable.harvest (b :: types) b.id
    (dedupIds interfaces ++ [.capability])) (dedupIds interfaces) = .ok d ∧ e.Defines (b :: types) d t

/-- Emitting the layers of a subtype builds both. -/
theorem World.built_of_emitLayers {label : String} {parent : Loader} {proxy : TypeId}
    (h : w.emitLayers e label base (dedupIds interfaces) properties parent = (.ok proxy, w')) :
    ∃ pairs b t, e.Built w.types base interfaces properties pairs b t ∧
      w'.types = t :: b :: w.types := by
  rw [emitLayers] at h
  split at h
  · cases h
  rename_i pairs hpairs
  dsimp only at h
  split at h
  · cases h
  rename_i id w₀ hbridge
  obtain ⟨bd, hbd, hdefine⟩ := bind_eq_ok.1 hbridge
  obtain ⟨b, arrays, hb, rfl, rfl⟩ := Emitter.defines_of_define hdefine
  have hlookup : TypeTable.lookup? (b :: w.types) b.id = some b := by
    rw [TypeTable.lookup?, List.find?_cons, beq_self_eq_true]
  split at h
  · rename_i hnone
    cases hnone.symm.trans hlookup
  rename_i b' hb'
  obtain rfl := Option.some.inj (hb'.symm.trans hlookup)
  split at h
  · cases h
  rename_i id w₁ hproxy
  cases h
  obtain ⟨pd, hpd, hdefine⟩ := bind_eq_ok.1 hproxy
  obtain ⟨t, arrays, ht, rfl, rfl⟩ := Emitter.defines_of_define hdefine
  exact ⟨pairs, b', t, ⟨⟨hpairs, ⟨bd, hbd, hb⟩⟩, ⟨pd, hpd, ht⟩⟩, rfl⟩

/-- Generating a subtype builds its two layers. -/
theorem World.built_of_generate {parent : Loader} {d : Option DispatcherId} {proxy : TypeId}
    (hbase : w.types.lookup? base.id = some base)
    (h : World.generate e base.id interfaces properties parent d w = (.ok proxy, w')) :
    ∃ pairs b t, e.Built w.types base interfaces properties pairs b t ∧ w'.types = t :: b :: w.types := by
  rw [generate, hbase] at h
  dsimp only at h
  split at h
  · cases h
  rename_i id w₁ hlayers
  obtain ⟨pairs, b, t, hbuilt, htypes⟩ := built_of_emitLayers hlayers
  refine ⟨pairs, b, t, hbuilt, ?_⟩
  rw [← htypes]
  split at h
  · cases h
    rfl
  · split at h
    · rename_i hinstall
      cases h
      rw [install] at hinstall
      split at hinstall
      · cases hinstall
      · cases hinstall
        rfl
    · cases h

/-- Generating a subtype adds the layers that it builds. -/
theorem World.layers_of_generate {parent : Loader} {d : Option DispatcherId} {proxy : TypeId}
    (hbase : w.types.lookup? base.id = some base)
    (h : World.generate e base.id interfaces properties parent d w = (.ok proxy, w')) :
    ∃ w₀ pairs b t, e.Layers w.types w₀ base interfaces properties b t ∧
      e.Built w.types base interfaces properties pairs b t ∧ proxy = t.id ∧ w'.types = t :: w₀.types := by
  obtain ⟨b, arrays, w₀, t, hlayers, hid, -, hw'⟩ := generate_eq_ok hbase h
  obtain ⟨pairs, b', t', hbuilt, htypes'⟩ := built_of_generate hbase h
  have htypes : w'.types = t :: w₀.types := by rw [hw']
  have hsame : t :: b :: w.types = t' :: b' :: w.types := by
    rw [← htypes', htypes, hlayers.types]
  cases hsame
  exact ⟨w₀, pairs, b, t, hlayers, hbuilt, hid, htypes⟩

/-- The layers of a subtype that stands are built. -/
theorem World.HasSubtype.built (h : w.HasSubtype base interfaces properties t) :
    ∃ e older w₀ pairs b, w.Stands e older w₀ base interfaces properties b t ∧
      e.Built older base interfaces properties pairs b t := by
  obtain ⟨e, w₀, w₁, parent, d, hstart, hbase, hgenerate, hlookup, hgrown⟩ := h.generated
  obtain ⟨w₀', pairs, b, s, hlayers, hbuilt, hid, htypes⟩ := layers_of_generate hbase hgenerate
  have hst : s = t := by
    rw [htypes, TypeTable.lookup?, List.find?_cons, hid, beq_self_eq_true] at hlookup
    exact Option.some.inj hlookup
  subst hst
  exact ⟨e, w₀.types, w₀', pairs, b, ⟨hlayers, hstart, hbase, htypes ▸ hgrown, h.numbered⟩, hbuilt⟩

namespace Emitter.BuiltBridge

/-- The methods of a bridge are the accessors of its properties, which are final, and its stubs. -/
theorem methods_eq (h : e.BuiltBridge types base properties pairs b) :
    ∃ accessors stubs, b.methods = accessors ++ stubs ∧
      accessors.map (·.slot) = (pairs.flatMap fun p => [p.getter.slot, p.setter.slot]) ∧
      (∀ m ∈ accessors, m.modifiers = Layer.ownModifiers) ∧
      List.Forall₂ (fun op m => ∃ d, Layer.stub b.name op = .ok d ∧ e.method b.id b.name d = .ok m)
        ((types.harvestAbstract base.id properties).filter fun op => !Layer.isClaimed pairs op) stubs := by
  obtain ⟨d, hd, hb⟩ := h.bridge
  obtain ⟨accessors, stubs, ctors, haccessors, hstubs, -, rfl⟩ := Layer.bridgeDef_eq_ok_iff.1 hd
  have hname : b.name = Naming.layer base.name .bridge := hb.name
  rw [← hname] at haccessors hstubs
  rw [mapM_eq_ok] at hstubs
  have hmade := List.forall₂_take_append _ _ _ hb.methods.flip
  have hstubbed := List.forall₂_drop_append _ _ _ hb.methods.flip
  refine ⟨_, _, (List.take_append_drop accessors.length b.methods).symm, ?_, fun m hm => ?_, ?_⟩
  · rw [slots_of_forall₂ hmade.flip, Layer.slots_of_propertyMethods haccessors]
  · obtain ⟨def_, hdef, hm⟩ := exists_of_forall₂ hmade.flip hm
    obtain ⟨_, -, rfl⟩ := method_eq_ok.1 hm
    exact Layer.modifiers_of_propertyMethods haccessors def_ hdef
  · refine forall₂_trans hstubs hstubbed.flip

/-- Every accessor slot of a bridge is closed by a final method, and the other methods of the bridge are stubs
that stand for declarations that may be taken over. -/
theorem method_cases (h : e.BuiltBridge types base properties pairs b) (hm : m ∈ b.methods) :
    m.modifiers.isFinal = true ∧ m.slot ∈ (pairs.flatMap fun p => [p.getter.slot, p.setter.slot]) ∨
    ∃ op ∈ types.harvestAbstract base.id properties, m.slot = op.slot ∧
      m.modifiers = Layer.overrideModifiers op ∧
      ∃ d, Layer.stub b.name op = .ok d ∧ e.method b.id b.name d = .ok m := by
  obtain ⟨accessors, stubs, hmethods, hslots, hmodifiers, hstubs⟩ := h.methods_eq
  rw [hmethods] at hm
  rcases List.mem_append.1 hm with hm | hm
  · refine .inl ⟨?_, hslots ▸ List.mem_map_of_mem hm⟩
    rw [hmodifiers m hm]
    rfl
  · obtain ⟨op, hop, d, hd, hmade⟩ := exists_of_forall₂ hstubs hm
    obtain ⟨hslot, hdmodifiers⟩ := Layer.stub_eq_ok hd
    obtain ⟨_, -, rfl⟩ := method_eq_ok.1 hmade
    exact .inr ⟨op, (List.mem_filter.1 hop).1, hslot, hdmodifiers, d, hd, hmade⟩

/-- A bridge has a stub for each abstract operation that is no accessor of a property. -/
theorem exists_stub (h : e.BuiltBridge types base properties pairs b)
    (hm : m ∈ types.harvestAbstract base.id properties) (hunclaimed : Layer.isClaimed pairs m = false) :
    ∃ k ∈ b.methods, k.slot = m.slot ∧ k.modifiers = Layer.overrideModifiers m := by
  obtain ⟨accessors, stubs, hmethods, -, -, hstubs⟩ := h.methods_eq
  have hstubbed : m ∈ (types.harvestAbstract base.id properties).filter fun op => !Layer.isClaimed pairs op :=
    List.mem_filter.2 ⟨hm, by rw [hunclaimed]; rfl⟩
  obtain ⟨k, hk, d, hd, hmade⟩ := exists_of_forall₂ hstubs.flip hstubbed
  refine ⟨k, hmethods ▸ List.mem_append_right _ hk, ?_⟩
  obtain ⟨_, -, rfl⟩ := method_eq_ok.1 hmade
  exact Layer.stub_eq_ok hd

/-- Each accessor slot of a bridge has a method of the bridge itself. -/
theorem exists_own (h : e.BuiltBridge types base properties pairs b) {s : Slot}
    (hs : s ∈ pairs.flatMap fun p => [p.getter.slot, p.setter.slot]) :
    ∃ m ∈ b.methods, m.slot = s ∧ m.modifiers = Layer.ownModifiers := by
  obtain ⟨accessors, stubs, hmethods, hslots, hmodifiers, -⟩ := h.methods_eq
  rw [← hslots] at hs
  obtain ⟨m, hm, rfl⟩ := List.mem_map.1 hs
  exact ⟨m, hmethods ▸ List.mem_append_left _ hm, rfl, hmodifiers m hm⟩

/-- What is built is a bridge of its base. -/
theorem isBridge (h : e.BuiltBridge types base properties pairs b) :
    Emitter.Bridge types base (types.harvestAbstract base.id properties) properties b := by
  obtain ⟨d, hd, hb⟩ := h.bridge
  obtain ⟨hsuperclass, hinterfaces, -, -⟩ := Layer.bridgeDef_eq_ok hd
  refine ⟨hb.id, hb.superclass.trans (congrArg some hsuperclass), hb.interfaces.trans hinterfaces, ?_,
    fun m hm => ?_, fun hnone => ?_⟩
  · rw [hb.slots_eq]
    exact ClassDef.nodup_of_validate hb.valid
  · rcases h.method_cases hm with ⟨hfinal, -⟩ | ⟨op, hop, hslot, hmodifiers, -⟩
    · exact .inl hfinal
    · exact .inr ⟨op, hop, hslot, hmodifiers⟩
  · subst hnone
    obtain rfl : pairs = [] := (Except.ok.inj h.paired).symm
    obtain ⟨accessors, stubs, hmethods, hslots, -, hstubs⟩ := h.methods_eq
    obtain rfl : accessors = [] := List.map_eq_nil_iff.1 hslots
    have hall : (types.harvestAbstract base.id []).filter (fun op => !Layer.isClaimed [] op) =
        types.harvestAbstract base.id [] := List.filter_eq_self.2 fun _ _ => rfl
    rw [hmethods, List.nil_append, ← hall]
    refine hstubs.imp fun op m ⟨d, hstub, hmade⟩ => ?_
    obtain ⟨hslot, hmodifiers⟩ := Layer.stub_eq_ok hstub
    obtain ⟨_, -, rfl⟩ := method_eq_ok.1 hmade
    exact ⟨hslot, hmodifiers⟩

end Emitter.BuiltBridge

end Interpose
