import Interpose.Proofs.Granting
import Interpose.Proofs.Upward

/-!
# Requests in another order

A subtype is kept for the sets of interfaces that it was asked for with. Whatever the order and the
repetitions in which these are given, its layers can be defined or not, list the same slots, and have the
same constructors and fields. Only the way up may end in another way, where interfaces with properties extend
others that declare one slot.
-/

namespace Interpose

variable {e : Emitter} {w w₁ w₂ : World} {types : TypeTable} {base b t b' t' : HostType}
  {interfaces properties interfaces' properties' extra extra' : List TypeId} {pairs pairs' : List PropertyPair}
  {s : Slot}

/-! ## Bridges for the same properties -/

/-- The fields of properties are told by their shapes. -/
theorem PropertyPair.fields_eq (h : pairs'.map (·.shape) = pairs.map (·.shape)) :
    (pairs'.map fun p => (⟨p.fieldName, p.type, .private⟩ : Field)) =
      pairs.map fun p => ⟨p.fieldName, p.type, .private⟩ := by
  have hshape (pairs : List PropertyPair) : (pairs.map fun p => (⟨p.fieldName, p.type, .private⟩ : Field)) =
      (pairs.map (·.shape)).map fun v => ⟨"$__" ++ v.1, v.2.1, .private⟩ := by
    rw [List.map_map]
    rfl
  rw [hshape, hshape, h]

namespace Emitter.BuiltBridge

section

variable (h : e.BuiltBridge types base properties pairs b) (h' : e.BuiltBridge types base properties' pairs' b')

include h h'

/-- Bridges on one base are of one name and number, and have the same constructors. -/
theorem constructors_eq : b'.id = b.id ∧ b'.name = b.name ∧ b'.constructors = b.constructors := by
  obtain ⟨d, hd, hb⟩ := h.bridge
  obtain ⟨d', hd', hb'⟩ := h'.bridge
  obtain ⟨_, _, ctors, -, -, hctors, rfl⟩ := Layer.bridgeDef_eq_ok_iff.1 hd
  obtain ⟨_, _, ctors', -, -, hctors', rfl⟩ := Layer.bridgeDef_eq_ok_iff.1 hd'
  obtain rfl := Except.ok.inj (hctors'.symm.trans hctors)
  have hid : b'.id = b.id := hb'.id.trans hb.id.symm
  have hname : b'.name = b.name := hb'.name.trans hb.name.symm
  have hmade := hb'.constructors
  rw [hid, hname] at hmade
  exact ⟨hid, hname, Except.ok.inj (hmade.symm.trans hb.constructors)⟩

/-- Proxies on bridges of one base have the same definitions of constructors. -/
theorem forwardingCtors_eq (owner : String) :
    Layer.forwardingCtors owner b' = Layer.forwardingCtors owner b := by
  rw [Layer.forwardingCtors, Layer.forwardingCtors, (h.constructors_eq h').2.2]

variable (hproperties : ∀ i, i ∈ properties' ↔ i ∈ properties)

include hproperties

theorem shapes_eq : pairs'.map (·.shape) = pairs.map (·.shape) := by
  obtain ⟨pairs'', hpaired, hshapes⟩ := TypeTable.harvestProperties_congr (fun i => (hproperties i).symm) h.paired
  obtain rfl := Except.ok.inj (hpaired.symm.trans h'.paired)
  exact hshapes

theorem fields_eq : b'.fields = b.fields := by
  obtain ⟨d, hd, hb⟩ := h.bridge
  obtain ⟨d', hd', hb'⟩ := h'.bridge
  obtain ⟨_, _, _, -, -, -, rfl⟩ := Layer.bridgeDef_eq_ok_iff.1 hd
  obtain ⟨_, _, _, -, -, -, rfl⟩ := Layer.bridgeDef_eq_ok_iff.1 hd'
  rw [hb.fields, hb'.fields]
  exact PropertyPair.fields_eq (h.shapes_eq h' hproperties)

end

end Emitter.BuiltBridge

/-! ## Slots -/

/-- What is left without a body in one order is so in any other, or else an interface with properties leads to a
declaration of the slot that may be taken over. -/
theorem TypeTable.Numbered.abstract_or_above (h : types.Numbered)
    (hproperties : ∀ i, i ∈ properties' ↔ i ∈ properties)
    (hs : s ∈ (types.harvestAbstract base.id properties).map (·.slot)) :
    s ∈ (types.harvestAbstract base.id properties').map (·.slot) ∨
      ∃ m, types.Above base (Layer.bridgeInterfaces base properties' ++ extra) m ∧ m.slot = s ∧
        m.isOffered = true := by
  obtain ⟨a, ha, rfl⟩ := List.mem_map.1 hs
  obtain ⟨ha, habstract⟩ := List.mem_filter.1 ha
  obtain ⟨hopen, hfirst⟩ := mem_intercept.1 ha
  have hdeclares (m : Method) : types.Declares base.id properties' m ↔ types.Declares base.id properties m :=
    declares_congr hproperties
  -- the sources start with what the base has without the properties
  obtain ⟨rest, hrest, hreached⟩ := extendFound_eq_append types properties (types.allInterfaces base.id)
  obtain ⟨rest', hrest', -⟩ := extendFound_eq_append types properties' (types.allInterfaces base.id)
  rw [interfaceList, hrest, ← List.append_assoc, List.flatMap_append, List.find?_append] at hfirst
  cases hfront : ((types.lineage base.id ++ types.allInterfaces base.id).flatMap (·.methods)).find?
      (fun m => m.isOffered && m.occupies a.slot) with
  | some k =>
      rw [hfront, Option.some_or] at hfirst
      cases hfirst
      refine .inl (List.mem_map_of_mem (List.mem_filter.2 ⟨mem_intercept.2 ⟨fun m hm => ?_, ?_⟩, habstract⟩))
      · exact hopen m (h.mem_sources.2 ((hdeclares m).1 (h.mem_sources.1 hm)))
      · rw [interfaceList, hrest', ← List.append_assoc, List.flatMap_append, List.find?_append, hfront,
          Option.some_or]
  | none =>
      rw [hfront, Option.none_or] at hfirst
      obtain ⟨t, ht, hm⟩ := List.mem_flatMap.1 (List.mem_of_find?_eq_some hfirst)
      have hoffered := List.find?_some hfirst
      rw [Bool.and_eq_true] at hoffered
      refine .inr ⟨a, ⟨t, .inr ((hreached t ht).mono fun i hi => ?_), hm⟩, rfl, hoffered.1⟩
      have hnamed : i ∈ Layer.bridgeInterfaces base properties' :=
        Layer.mem_bridgeInterfaces.2 (.inr ((hproperties i).2 hi))
      exact List.mem_append_left _ (List.mem_append_left _ hnamed)

namespace Emitter.BuiltBridge

variable (h : e.BuiltBridge types base properties pairs b) (h' : e.BuiltBridge types base properties' pairs' b')
  (hnumbered : TypeTable.Numbered (b :: types)) (hnumbered' : TypeTable.Numbered (b' :: types))
  (hextra : ∀ i ∈ extra, i.index < types.length) (hproperties : ∀ i, i ∈ properties' ↔ i ∈ properties)
  (hsame : ∀ i, i ∈ extra' ↔ i ∈ extra)

include h h' hnumbered hnumbered' hextra hproperties hsame

theorem mem_slots_of_same (hs : s ∈ (TypeTable.harvest (b :: types) b.id extra).map (·.slot)) :
    s ∈ (TypeTable.harvest (b' :: types) b'.id extra').map (·.slot) := by
  have habove (m : Method) : types.Above base (Layer.bridgeInterfaces base properties' ++ extra') m ↔
      types.Above base (Layer.bridgeInterfaces base properties ++ extra) m := by
    refine TypeTable.above_congr fun i => ?_
    rw [List.mem_append, List.mem_append, hsame, Layer.mem_bridgeInterfaces, Layer.mem_bridgeInterfaces,
      hproperties]
  obtain ⟨hsome, hopen, hunclaimed⟩ := (h.mem_slots_iff_above hnumbered hextra).1 hs
  refine (h'.mem_slots_iff_above hnumbered' fun i hi => hextra i ((hsame i).1 hi)).2
    ⟨?_, fun m hm => hopen m ((habove m).1 hm), ?_⟩
  · rcases hsome with habstract | ⟨m, hm, hrest⟩
    · exact hnumbered.2.2.2.abstract_or_above hproperties habstract
    · exact .inr ⟨m, (habove m).2 hm, hrest⟩
  · rwa [PropertyPair.slots_eq (h.shapes_eq h' hproperties)]

/-- Tables are the same slot by slot whatever the order of interfaces. -/
theorem slots_harvest_eq : (TypeTable.harvest (b' :: types) b'.id extra').map (·.slot) =
    (TypeTable.harvest (b :: types) b.id extra).map (·.slot) := by
  refine Gathering.Sorted.slots_eq (sorted_intercept _) (sorted_intercept _) fun s => ⟨fun hs => ?_, fun hs => ?_⟩
  · exact h'.mem_slots_of_same h hnumbered' hnumbered (fun i hi => hextra i ((hsame i).1 hi))
      (fun i => (hproperties i).symm) (fun i => (hsame i).symm) hs
  · exact h.mem_slots_of_same h' hnumbered hnumbered' hextra hproperties hsame hs

end Emitter.BuiltBridge

/-- What a proxy names besides its bridge depends on the set of interfaces that are asked for. -/
theorem mem_requested_iff (h : ∀ i, i ∈ interfaces' ↔ i ∈ interfaces) (i : TypeId) :
    i ∈ dedupIds interfaces' ++ [.capability] ↔ i ∈ dedupIds interfaces ++ [.capability] := by
  rw [List.mem_append, List.mem_append, mem_dedupIds, mem_dedupIds, h]

/-! ## Definitions -/

/-- The dispatching bodies of a proxy that is defined have not too many constants. -/
theorem Layer.thunkConstants_of_proxyDef {bridge : HostType} {ops : List Method} {requested : List TypeId}
    {d : ClassDef} (h : proxyDef types bridge base ops requested = .ok d) {op : Method} (hop : op ∈ ops) :
    thunkConstants op.slot ≤ CodeBuilder.maxConstants := by
  obtain ⟨methods, _, hmethods, -, -⟩ := proxyDef_eq_ok_iff.1 h
  obtain ⟨k, hk⟩ := List.getElem?_of_mem hop
  obtain ⟨dispatching, _, -, -, hdispatching, -⟩ := getElem?_proxyMethods hmethods hk
  obtain ⟨code, hcode, -⟩ := thunk_eq_ok.1 hdispatching
  exact exists_thunkCode_iff.1 ⟨code, hcode⟩

/-- So are the slots that another proxy has in common with it. -/
theorem Layer.thunkConstants_of_slots {types : TypeTable} {bridge base : HostType} {ops ops' : List Method}
    {requested : List TypeId} {d : ClassDef} (hd : proxyDef types bridge base ops requested = .ok d)
    (hslots : ops'.map (·.slot) = ops.map (·.slot)) {op : Method} (hop : op ∈ ops') :
    thunkConstants op.slot ≤ CodeBuilder.maxConstants := by
  have hs : op.slot ∈ ops'.map (·.slot) := List.mem_map_of_mem hop
  rw [hslots] at hs
  obtain ⟨op', hop', hslot⟩ := List.mem_map.1 hs
  rw [← hslot]
  exact thunkConstants_of_proxyDef hd hop'

namespace Emitter.Built

variable (h : e.Built types base interfaces properties pairs b t) (hnumbered : types.Numbered)
  (hstart : TypeTable.initial <:+ types) (hbase : types.lookup? base.id = some base)
  (hdeclared : ∀ i ∈ interfaces ++ properties, i.index < types.length)
  (hinterfaces : ∀ i, i ∈ interfaces' ↔ i ∈ interfaces) (hproperties : ∀ i, i ∈ properties' ↔ i ∈ properties)

include h hnumbered hstart hbase hproperties in
/-- A bridge can be defined for the properties in another order. -/
theorem exists_bridgeDef_of_same (hpairs : types.harvestProperties properties' = .ok pairs') :
    ∃ d, Layer.bridgeDef types base (types.harvestAbstract base.id properties') pairs' properties' = .ok d ∧
      d.validate types = .ok () ∧ ∀ c ∈ d.codes, e.Takes c := by
  obtain ⟨d, hd, hb⟩ := h.bridge
  obtain ⟨d', hd', hmethods⟩ := Layer.exists_bridgeDef types base
    (types.harvestAbstract base.id properties') pairs' properties'
  refine ⟨d', hd', ?_, ClassDef.forall_mem_codes.2
    ⟨fun c hc => ?_, fun m hm => Emitter.takes_of_leads (hmethods m hm) e⟩⟩
  · obtain ⟨hopen, hall⟩ := (Layer.validate_bridgeDef_iff hd (TypeTable.pairs_of_harvestProperties h.paired)
      ((sorted_intercept _).sublist List.filter_sublist) hnumbered hstart hbase).1 hb.valid
    exact (Layer.validate_bridgeDef_iff hd' (TypeTable.pairs_of_harvestProperties hpairs)
      ((sorted_intercept _).sublist List.filter_sublist) hnumbered hstart hbase).2
      ⟨hopen, fun i hi => hall i ((hproperties i).1 hi)⟩
  · obtain ⟨_, _, ctors, -, -, hctors, rfl⟩ := Layer.bridgeDef_eq_ok_iff.1 hd
    obtain ⟨_, _, ctors', -, -, hctors', rfl⟩ := Layer.bridgeDef_eq_ok_iff.1 hd'
    obtain rfl := Except.ok.inj (hctors'.symm.trans hctors)
    exact hb.takes c.code (List.mem_append_left _ (List.mem_map_of_mem hc))

include h hnumbered hstart hbase hdeclared hinterfaces hproperties

/-- A proxy can be defined on a bridge for the interfaces and properties in another order. -/
theorem exists_proxyDef_of_same (h' : e.BuiltBridge types base properties' pairs' b') :
    ∃ d, Layer.proxyDef (b' :: types) b' base (TypeTable.harvest (b' :: types) b'.id
        (dedupIds interfaces' ++ [.capability])) (dedupIds interfaces') = .ok d ∧
      d.validate (b' :: types) = .ok () ∧ ∀ c ∈ d.codes, e.Takes c := by
  obtain ⟨d, hd, ht⟩ := h.proxy
  have hasked := TypeTable.index_lt_of_asked hstart hdeclared
  obtain ⟨hpropertiesDeclared, hextra⟩ := List.forall_mem_append.1 hasked
  have hnumberedB := h.isBridge.numbered hnumbered hstart hbase hpropertiesDeclared
  have hnumberedB' := h'.isBridge.numbered hnumbered hstart hbase fun i hi =>
    hpropertiesDeclared i ((hproperties i).1 hi)
  have hslots := h.slots_harvest_eq h' hnumberedB hnumberedB' hextra hproperties
    (mem_requested_iff hinterfaces)
  obtain ⟨d', hd', hmethods⟩ := Layer.exists_proxyDef (b' :: types) b' base (dedupIds interfaces')
    fun _ hop => Layer.thunkConstants_of_slots hd hslots hop
  refine ⟨d', hd', ?_, ClassDef.forall_mem_codes.2
    ⟨fun c hc => ?_, fun m hm => Emitter.takes_of_leads (hmethods m hm) e⟩⟩
  · have hstartB {b : HostType} := hstart.trans (List.suffix_cons b types)
    obtain ⟨hrequested, hnodup⟩ := (Layer.validate_proxyDef_iff hd (hnumberedB.lookup?_of_mem List.mem_cons_self)
      h.superclassFlaw?_eq_none hnumberedB hstartB).1 ht.valid
    refine (Layer.validate_proxyDef_iff hd' (hnumberedB'.lookup?_of_mem List.mem_cons_self)
      h'.superclassFlaw?_eq_none hnumberedB' hstartB).2 ⟨fun i hi u hu => ?_, by rwa [hslots]⟩
    have hi' := (hinterfaces i).1 (mem_dedupIds.1 hi)
    have hlt := hdeclared i (List.mem_append_left _ hi')
    have hgrown : TypeTable.Numbered ([b] ++ types) := hnumberedB
    have hgrown' : TypeTable.Numbered ([b'] ++ types) := hnumberedB'
    have hlookup := (hgrown'.lookup?_append hlt).trans (hgrown.lookup?_append hlt).symm
    exact hrequested i (mem_dedupIds.2 hi') u (hlookup.symm.trans hu)
  · obtain ⟨_, ctors, -, hctors, rfl⟩ := Layer.proxyDef_eq_ok_iff.1 hd
    obtain ⟨_, ctors', -, hctors', rfl⟩ := Layer.proxyDef_eq_ok_iff.1 hd'
    rw [h.forwardingCtors_eq h'] at hctors'
    obtain rfl := Except.ok.inj (hctors'.symm.trans hctors)
    exact ht.takes c.code (List.mem_append_left _ (List.mem_map_of_mem hc))

end Emitter.Built

/-- Proxies on bridges of one base are of one number and have the same constructors. -/
theorem Emitter.Built.constructors_eq (h : e.Built types base interfaces properties pairs b t)
    (h' : e.Built types base interfaces' properties' pairs' b' t') :
    t'.id = t.id ∧ t'.constructors = t.constructors := by
  obtain ⟨d, hd, ht⟩ := h.proxy
  obtain ⟨d', hd', ht'⟩ := h'.proxy
  obtain ⟨_, ctors, -, hctors, rfl⟩ := Layer.proxyDef_eq_ok_iff.1 hd
  obtain ⟨_, ctors', -, hctors', rfl⟩ := Layer.proxyDef_eq_ok_iff.1 hd'
  rw [h.forwardingCtors_eq h'.toBuiltBridge] at hctors'
  obtain rfl := Except.ok.inj (hctors'.symm.trans hctors)
  have hid : t'.id = t.id := ht'.id.trans ht.id.symm
  have hname : t'.name = t.name := ht'.name.trans ht.name.symm
  have hmade := ht'.constructors
  rw [hid, hname] at hmade
  exact ⟨hid, Except.ok.inj (hmade.symm.trans ht.constructors)⟩

/-! ## Requests -/

/-- The operations of a proxy are harvested from its bridge. -/
theorem Emitter.Layers.operations {w₀ : World} (h : e.Layers types w₀ base interfaces properties b t) :
    (TypeTable.proxy? (t :: w₀.types) t.id).map (·.operations) =
      some (TypeTable.harvest (b :: types) b.id (dedupIds interfaces ++ [.capability])) := by
  have hlookup : TypeTable.lookup? (t :: w₀.types) t.id = some t := by
    rw [TypeTable.lookup?, List.find?_cons, beq_self_eq_true]
  rw [h.proxy.proxy?_eq hlookup, h.types]
  rfl

namespace World

variable {parent : Loader} {d : Option DispatcherId} {proxy proxy' : TypeId}

/-- A subtype that is generated with a dispatcher is generated with any other, or without one. -/
theorem exists_generate_of_dispatcher {k : DispatcherId}
    (h : World.generate e base.id interfaces properties parent (some k) w = (.ok proxy, w₁))
    (d : Option DispatcherId) :
    ∃ w₂, World.generate e base.id interfaces properties parent d w = (.ok proxy, w₂) := by
  rw [World.generate] at h ⊢
  cases hlookup : w.types.lookup? base.id with
  | none =>
      rw [hlookup] at h
      cases h
  | some b =>
      rw [hlookup] at h
      dsimp only at h ⊢
      rcases hlayers : w.emitLayers e (subtypeLoaderName b) b (dedupIds interfaces) properties parent with
        ⟨_ | id, w₀⟩
      · rw [hlayers] at h
        cases h
      · rw [hlayers] at h
        -- whether a dispatcher is set already does not depend on the one that is to be set
        cases hset : w₀.dispatcherOf? id with
        | some k' =>
            simp only [install, hset] at h
            cases h
        | none =>
            simp only [install, hset] at h ⊢
            cases h
            cases d <;> exact ⟨_, rfl⟩

/-- A subtype that is generated is generated for the interfaces and properties in another order as well. -/
theorem exists_generate_of_same (hs : w.Sane) (hset : w.SetsKnown)
    (hdeclared : ∀ i ∈ interfaces ++ properties, i.index < w.types.length)
    (hbase : w.types.lookup? base.id = some base) (hinterfaces : ∀ i, i ∈ interfaces' ↔ i ∈ interfaces)
    (hproperties : ∀ i, i ∈ properties' ↔ i ∈ properties)
    (h : World.generate e base.id interfaces properties parent d w = (.ok proxy, w₁)) :
    ∃ proxy' w₂, World.generate e base.id interfaces' properties' parent d w = (.ok proxy', w₂) := by
  obtain ⟨_, pairs, b, t, -, hbuilt, -, -⟩ := layers_of_generate hbase h
  obtain ⟨pairs', hpairs', -⟩ := TypeTable.harvestProperties_congr (fun i => (hproperties i).symm) hbuilt.paired
  obtain ⟨w₂, hgenerate⟩ := exists_generate_of_defs parent ⟨0⟩ hbase hpairs'
    (hbuilt.exists_bridgeDef_of_same hs.numbered hs.start hbase hproperties hpairs')
    (fun b' hb' => hbuilt.exists_proxyDef_of_same hs.numbered hs.start hbase hdeclared hinterfaces hproperties hb')
    (hset.dispatcherOf?_eq_none (Nat.le_succ _))
  exact ⟨_, exists_generate_of_dispatcher hgenerate d⟩

end World

/-! ## A class with two ways of ringing -/

/-- The slot of the operation that rings. -/
def bellSlot : Slot := ⟨"ring", .reference stringName, []⟩

/-- An operation that rings in one way. -/
def bellRing (sound declaring : String) (id : TypeId) : Method :=
  ⟨bellSlot.name, bellSlot.params, bellSlot.returns, .public, declaring, id,
    .native fun _ _ => .done (.str sound)⟩

/-- An interface that rings in one way. -/
def bellSound (sound name : String) (id : TypeId) : HostType :=
  ⟨id, name, .iface, .public ||| .abstract, none, [], [bellRing sound name id], [], [], .system, none⟩

/-- An interface without operations that extends another one. -/
def bellMark (name : String) (id sound : TypeId) : HostType :=
  ⟨id, name, .iface, .public ||| .abstract, none, [sound], [], [], [], .system, none⟩

/-- A class without operations, two interfaces that ring, and two that extend one of these each. -/
def bellWorld : World :=
  { World.initial {} with
    types := bellMark "Softer" ⟨6⟩ ⟨4⟩ :: bellMark "Louder" ⟨5⟩ ⟨3⟩ :: bellSound "soft" "Soft" ⟨4⟩ ::
      bellSound "loud" "Loud" ⟨3⟩ :: gauge [] :: TypeTable.initial }

theorem sane_bellWorld : bellWorld.Sane := by
  refine World.sane_of_types _ ⟨rfl, nofun, ?_, rfl, nofun, ?_, rfl, nofun, nofun, rfl, nofun, nofun,
    numbered_gauge []⟩ ⟨[_, _, _, _, _], rfl⟩
  all_goals decide

theorem lookup?_bell : bellWorld.types.lookup? (gauge []).id = some (gauge []) := rfl

section

variable (hp : properties = [⟨5⟩, ⟨6⟩] ∨ properties = [⟨6⟩, ⟨5⟩])

include hp

theorem harvestProperties_bell : bellWorld.types.harvestProperties properties = .ok [] := by
  rcases hp with rfl | rfl <;> rfl

theorem declared_bell : ∀ i ∈ [] ++ properties, i.index < bellWorld.types.length := by
  rcases hp with rfl | rfl <;> decide

/-- The class can be extended with the interfaces in both orders. -/
theorem exists_generate_bell :
    ∃ proxy w', World.generate ⟨.weave, true⟩ (gauge []).id [] properties .system none bellWorld =
      (.ok proxy, w') := by
  have hinterfaces : ∀ i ∈ [] ++ properties, (bellWorld.types.lookup? i).all (·.isInterface) = true := by
    rcases hp with rfl | rfl <;> decide
  obtain ⟨w', h⟩ := World.exists_generate_of_fits ⟨.weave, true⟩ .system ⟨0⟩ sane_bellWorld.numbered
    sane_bellWorld.start lookup?_bell (declared_bell hp) (TypeTable.modest_of_forall (by decide) (by decide)).fits
    (fun i hi t ht => by simpa [ht] using hinterfaces i hi) (harvestProperties_bell hp)
    (.inr ⟨by decide, by decide⟩) rfl
  obtain ⟨w'', h⟩ := World.exists_generate_of_dispatcher h none
  exact ⟨_, w'', h⟩

/-- Its subtypes list the operation that rings. -/
theorem exists_endsIn_bell : ∃ w' b t operations op,
    World.generate ⟨.weave, true⟩ (gauge []).id [] properties .system none bellWorld = (.ok t.id, w') ∧
    w'.types = t :: b :: bellWorld.types ∧ (w'.types.proxy? t.id).map (·.operations) = some operations ∧
    op ∈ operations ∧ op.slot = bellSlot ∧ Emitter.EndsIn ⟨.weave, true⟩ (b :: bellWorld.types) b op
      (bellWorld.types.ending (gauge []) properties bellSlot) := by
  obtain ⟨proxy, w', h⟩ := exists_generate_bell hp
  obtain ⟨w₀, pairs, b, t, hlayers, hbuilt, rfl, htypes⟩ := World.layers_of_generate lookup?_bell h
  obtain ⟨hasked, hextra⟩ := List.forall_mem_append.1
    (TypeTable.index_lt_of_asked sane_bellWorld.start (declared_bell hp))
  have hnumbered := hlayers.bridge.numbered sane_bellWorld.numbered sane_bellWorld.start lookup?_bell hasked
  obtain rfl := Except.ok.inj (hbuilt.paired.symm.trans (harvestProperties_bell hp))
  have hloud : bellWorld.types.Declares (gauge []).id (properties ++ (dedupIds [] ++ [.capability]))
      (bellRing "loud" "Loud" ⟨3⟩) := by
    have hlouder : (⟨5⟩ : TypeId) ∈ properties := by
      rcases hp with rfl | rfl <;> decide
    have hlookup : bellWorld.types.lookup? ⟨5⟩ = some (bellMark "Louder" ⟨5⟩ ⟨3⟩) := rfl
    have hnamed := List.mem_append_right ((bellWorld.types.lineage (gauge []).id).flatMap (·.interfaces))
      (List.mem_append_left (dedupIds [] ++ [.capability]) hlouder)
    exact ⟨bellSound "loud" "Loud" ⟨3⟩, .inr (.extended (.named hnamed hlookup) List.mem_cons_self rfl),
      List.mem_cons_self⟩
  have hopen : ∀ t ∈ bellWorld.types, ∀ m ∈ t.methods, m.slot = bellSlot → m.modifiers.isFinal = false := by
    decide
  have hlisted := (hbuilt.mem_slots hnumbered sane_bellWorld.start lookup?_bell (by decide) hextra).2
    ⟨⟨_, hloud, rfl, by decide⟩, fun m ⟨t, ht, hm⟩ => hopen t ht.mem m hm, List.not_mem_nil⟩
  obtain ⟨op, hop, hslot⟩ := List.mem_map.1 hlisted
  have hends := hbuilt.endsIn hnumbered hop
  rw [hslot] at hends
  refine ⟨w', b, t, _, op, h, hlayers.types ▸ htypes, ?_, hop, hslot, hends⟩
  rw [htypes]
  exact hlayers.operations

end

/-- The way up ends with the one way of ringing in one order, and with the other one in the other. -/
theorem ending_bell :
    bellWorld.types.ending (gauge []) [⟨5⟩, ⟨6⟩] bellSlot = .body (bellRing "loud" "Loud" ⟨3⟩) ∧
    bellWorld.types.ending (gauge []) [⟨6⟩, ⟨5⟩] bellSlot = .body (bellRing "soft" "Soft" ⟨4⟩) := by
  have hlouder : bellWorld.types.extendFound [⟨5⟩, ⟨6⟩] [] = [bellMark "Louder" ⟨5⟩ ⟨3⟩,
      bellSound "loud" "Loud" ⟨3⟩, bellMark "Softer" ⟨6⟩ ⟨4⟩, bellSound "soft" "Soft" ⟨4⟩] := by
    iterate 4 refine (TypeTable.extendFound_cons rfl rfl).trans ?_
    exact TypeTable.extendFound.eq_1 _ _
  have hsofter : bellWorld.types.extendFound [⟨6⟩, ⟨5⟩] [] = [bellMark "Softer" ⟨6⟩ ⟨4⟩,
      bellSound "soft" "Soft" ⟨4⟩, bellMark "Louder" ⟨5⟩ ⟨3⟩, bellSound "loud" "Loud" ⟨3⟩] := by
    iterate 4 refine (TypeTable.extendFound_cons rfl rfl).trans ?_
    exact TypeTable.extendFound.eq_1 _ _
  have hnone : bellWorld.types.allInterfaces (gauge []).id = [] := rfl
  have hnamed (ids : List TypeId) : Layer.bridgeInterfaces (gauge []) ids ++ (bellWorld.types.lineage
      (Layer.bridgeSuperclass (gauge []))).flatMap (·.interfaces) = ids := List.append_nil ids
  constructor
  · rw [TypeTable.ending, TypeTable.harvestAbstract, TypeTable.harvest, TypeTable.interfaceList, hnone,
      TypeTable.reached?, hnamed, hlouder]
    rfl
  · rw [TypeTable.ending, TypeTable.harvestAbstract, TypeTable.harvest, TypeTable.interfaceList, hnone,
      TypeTable.reached?, hnamed, hsofter]
    rfl

/-- The subtypes of a base for the same sets of interfaces and of interfaces with properties can be generated all
or none, and their tables are the same slot by slot, as are their constructors and the fields of their bridges.
The way up ends for an operation as its slot and the interfaces with properties tell, in the order in which
these are named first, which counts only where they compete with each other. -/
theorem World.generate_of_same {parent : Loader} {d : Option DispatcherId} (hs : w.Sane) (hset : w.SetsKnown)
    (hdeclared : ∀ i ∈ interfaces ++ properties, i.index < w.types.length)
    (hbase : w.types.lookup? base.id = some base) (hinterfaces : ∀ i, i ∈ interfaces' ↔ i ∈ interfaces)
    (hproperties : ∀ i, i ∈ properties' ↔ i ∈ properties) :
    ((∃ proxy w₁, World.generate e base.id interfaces properties parent d w = (.ok proxy, w₁)) ↔
      ∃ proxy' w₂, World.generate e base.id interfaces' properties' parent d w = (.ok proxy', w₂)) ∧
    (∀ proxy w₁ proxy' w₂, World.generate e base.id interfaces properties parent d w = (.ok proxy, w₁) →
      World.generate e base.id interfaces' properties' parent d w = (.ok proxy', w₂) →
      ∃ b t b' t' operations operations', proxy = t.id ∧ w₁.types = t :: b :: w.types ∧
        proxy' = t'.id ∧ w₂.types = t' :: b' :: w.types ∧
        (w₁.types.proxy? proxy).map (·.operations) = some operations ∧
        (w₂.types.proxy? proxy').map (·.operations) = some operations' ∧
        operations'.map (·.slot) = operations.map (·.slot) ∧ t'.constructors = t.constructors ∧
        b'.fields = b.fields ∧
        (∀ op ∈ operations, e.EndsIn (b :: w.types) b op (w.types.ending base properties op.slot)) ∧
        ∀ op ∈ operations', e.EndsIn (b' :: w.types) b' op (w.types.ending base properties' op.slot)) ∧
    ∀ s, dedupIds properties' = dedupIds properties ∨ w.types.Settled base properties s →
      w.types.ending base properties' s = w.types.ending base properties s := by
  have hback : ∀ i ∈ interfaces' ++ properties', i.index < w.types.length := by
    simpa only [List.mem_append, hinterfaces, hproperties] using hdeclared
  refine ⟨⟨fun ⟨_, _, h⟩ => ?_, fun ⟨_, _, h⟩ => ?_⟩, fun proxy w₁ proxy' w₂ h h' => ?_, fun s hcase => ?_⟩
  · exact exists_generate_of_same hs hset hdeclared hbase hinterfaces hproperties h
  · exact exists_generate_of_same hs hset hback hbase (fun i => (hinterfaces i).symm)
      (fun i => (hproperties i).symm) h
  · obtain ⟨w₀, pairs, b, t, hlayers, hbuilt, rfl, htypes⟩ := layers_of_generate hbase h
    obtain ⟨w₀', pairs', b', t', hlayers', hbuilt', rfl, htypes'⟩ := layers_of_generate hbase h'
    obtain ⟨hasked, hextra⟩ := List.forall_mem_append.1 (TypeTable.index_lt_of_asked hs.start hdeclared)
    have hnumbered := hlayers.bridge.numbered hs.numbered hs.start hbase hasked
    have hnumbered' := hlayers'.bridge.numbered hs.numbered hs.start hbase fun i hi =>
      hasked i ((hproperties i).1 hi)
    refine ⟨b, t, b', t', _, _, rfl, hlayers.types ▸ htypes, rfl, hlayers'.types ▸ htypes', ?_, ?_,
      hbuilt.slots_harvest_eq hbuilt'.toBuiltBridge hnumbered hnumbered' hextra hproperties
        (mem_requested_iff hinterfaces), (hbuilt.constructors_eq hbuilt').2,
      hbuilt.fields_eq hbuilt'.toBuiltBridge hproperties, fun op hop => hbuilt.endsIn hnumbered hop,
      fun op hop => hbuilt'.endsIn hnumbered' hop⟩
    · rw [htypes]
      exact hlayers.operations
    · rw [htypes']
      exact hlayers'.operations
  · rcases hcase with hfirst | hsettled
    · exact TypeTable.ending_eq_of_dedupIds hfirst
    · exact hs.numbered.ending_eq_of_settled hs.start hbase hproperties hsettled

/-- The subtypes of the class for both orders list the same slots. -/
theorem World.generate_of_same_bell : ∃ proxy w₁ proxy' w₂ operations operations',
    World.generate ⟨.weave, true⟩ (gauge []).id [] [⟨5⟩, ⟨6⟩] .system none bellWorld = (.ok proxy, w₁) ∧
    World.generate ⟨.weave, true⟩ (gauge []).id [] [⟨6⟩, ⟨5⟩] .system none bellWorld = (.ok proxy', w₂) ∧
    (w₁.types.proxy? proxy).map (·.operations) = some operations ∧
    (w₂.types.proxy? proxy').map (·.operations) = some operations' ∧
    operations'.map (·.slot) = operations.map (·.slot) := by
  obtain ⟨proxy, w₁, h⟩ := exists_generate_bell (.inl rfl)
  have hinterfaces (i : TypeId) : i ∈ [] ↔ i ∈ [] := Iff.rfl
  have hproperties (i : TypeId) : i ∈ [(⟨6⟩ : TypeId), ⟨5⟩] ↔ i ∈ [(⟨5⟩ : TypeId), ⟨6⟩] := by simp [or_comm]
  have hdeclared := declared_bell (.inl rfl)
  obtain ⟨proxy', w₂, h'⟩ := (generate_of_same sane_bellWorld nofun hdeclared lookup?_bell hinterfaces
    hproperties).1.1 ⟨proxy, w₁, h⟩
  obtain ⟨_, _, _, _, operations, operations', -, -, -, -, hoperations, hoperations', hslots, -⟩ :=
    (generate_of_same sane_bellWorld nofun hdeclared lookup?_bell hinterfaces hproperties).2.1 proxy w₁ proxy' w₂
      h h'
  exact ⟨proxy, w₁, proxy', w₂, operations, operations', h, h', hoperations, hoperations', hslots⟩

/-- The way up of the operation that rings ends in different ways on these subtypes. -/
theorem World.generate_of_same_differs : ∃ proxy w₁ proxy' w₂ b t b' t' operations operations',
    World.generate ⟨.weave, true⟩ (gauge []).id [] [⟨5⟩, ⟨6⟩] .system none bellWorld = (.ok proxy, w₁) ∧
    World.generate ⟨.weave, true⟩ (gauge []).id [] [⟨6⟩, ⟨5⟩] .system none bellWorld = (.ok proxy', w₂) ∧
    w₁.types = t :: b :: bellWorld.types ∧ w₂.types = t' :: b' :: bellWorld.types ∧
    (w₁.types.proxy? proxy).map (·.operations) = some operations ∧
    (w₂.types.proxy? proxy').map (·.operations) = some operations' ∧
    ∃ op ∈ operations, ∃ op' ∈ operations', op'.slot = op.slot ∧
      ¬∃ x, Emitter.EndsIn ⟨.weave, true⟩ (b :: bellWorld.types) b op x ∧
        Emitter.EndsIn ⟨.weave, true⟩ (b' :: bellWorld.types) b' op' x := by
  obtain ⟨w₁, b, t, operations, op, h, htypes, hoperations, hop, hslot, hends⟩ := exists_endsIn_bell (.inl rfl)
  obtain ⟨w₂, b', t', operations', op', h', htypes', hoperations', hop', hslot', hends'⟩ :=
    exists_endsIn_bell (.inr rfl)
  refine ⟨_, w₁, _, w₂, b, t, b', t', operations, operations', h, h', htypes, htypes', hoperations, hoperations',
    op, hop, op', hop', hslot'.trans hslot.symm, fun ⟨x, hx, hx'⟩ => ?_⟩
  have hsame := (hends.unique hx).trans (hx'.unique hends')
  rw [ending_bell.1, ending_bell.2] at hsame
  have hdeclaring := congrArg Method.declaring (Layer.Ending.body.inj hsame)
  exact absurd hdeclaring (by decide)

end Interpose
