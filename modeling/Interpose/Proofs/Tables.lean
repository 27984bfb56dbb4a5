import Interpose.Proofs.Building
import Interpose.Proofs.Requests

/-!
# What operation tables list

A table is harvested from the bridge, whose stubs and accessors are declarations as well. Stubs stand for
declarations of the base and its interfaces, and accessors are final. So the table lists what is declared
above the bridge and may be taken over, except what a final declaration or an accessor of a property closes.
-/

namespace Interpose

variable {e : Emitter} {w w' : World} {types new : TypeTable} {base b t : HostType}
  {interfaces properties extra extra' : List TypeId} {pairs : List PropertyPair} {m : Method} {s : Slot}

/-! ## What is in scope -/

namespace TypeTable

theorem InScope.mono {id : TypeId} (h : types.InScope id extra t) (hextra : ∀ i ∈ extra, i ∈ extra') :
    types.InScope id extra' t := by
  refine h.imp_right fun h => h.mono fun i hi => ?_
  exact (List.mem_append.1 hi).elim (List.mem_append_left _)
    fun hi => List.mem_append_right _ (hextra i hi)

theorem Declares.mono {id : TypeId} (h : types.Declares id extra m) (hextra : ∀ i ∈ extra, i ∈ extra') :
    types.Declares id extra' m := by
  obtain ⟨t, ht, hm⟩ := h
  exact ⟨t, ht.mono hextra, hm⟩

/-- What is declared depends on the set of further interfaces only. -/
theorem declares_congr {id : TypeId} (hextra : ∀ i, i ∈ extra ↔ i ∈ extra') :
    types.Declares id extra m ↔ types.Declares id extra' m :=
  ⟨fun h => h.mono fun i => (hextra i).1, fun h => h.mono fun i => (hextra i).2⟩

/-- A table says the same about what is in scope when it grows. -/
theorem Numbered.inScope_append {id : TypeId} (h : Numbered (new ++ types)) (hid : id.index < types.length)
    (hextra : ∀ i ∈ extra, i.index < types.length) :
    InScope (new ++ types) id extra t ↔ types.InScope id extra t := by
  have hlineage : lineage (new ++ types) id = lineage types id :=
    lineage_append fun s => h.ne_of_mem hid
  rw [InScope, InScope, hlineage, h.reaches_append]
  intro i hi
  rcases List.mem_append.1 hi with hi | hi
  · obtain ⟨s, hs, hi⟩ := List.mem_flatMap.1 hi
    exact (h.of_append.names_lt (mem_of_mem_lineage hs)).2 i hi
  · exact hextra i hi

/-- A table says the same about what is declared when it grows. -/
theorem Numbered.declares_append {id : TypeId} (h : Numbered (new ++ types)) (hid : id.index < types.length)
    (hextra : ∀ i ∈ extra, i.index < types.length) :
    Declares (new ++ types) id extra m ↔ types.Declares id extra m :=
  exists_congr fun _ => and_congr_left fun _ => h.inScope_append hid hextra

/-- Whether an operation is declared above a layer on a base: by the class chain that the layer extends, or by
an interface that is reached from those named and those of the chain. -/
def Above (types : TypeTable) (base : HostType) (named : List TypeId) (m : Method) : Prop :=
  ∃ t, (t ∈ types.lineage (Layer.bridgeSuperclass base) ∨
    types.Reaches (named ++ (types.lineage (Layer.bridgeSuperclass base)).flatMap (·.interfaces)) t) ∧
    m ∈ t.methods

/-- What is declared above a layer depends on the set of the interfaces only. -/
theorem above_congr {named named' : List TypeId} (h : ∀ i, i ∈ named ↔ i ∈ named') :
    types.Above base named m ↔ types.Above base named' m := by
  refine exists_congr fun t => and_congr_left fun _ => or_congr_right (reaches_congr fun i => ?_)
  rw [List.mem_append, List.mem_append, h]

/-- Above a layer on a class there are the types that the class has in scope. -/
theorem reaches_above_of_class (hclass : base.isInterface = false) :
    (t ∈ types.lineage (Layer.bridgeSuperclass base) ∨
        types.Reaches (Layer.bridgeInterfaces base properties ++ extra ++
          (types.lineage (Layer.bridgeSuperclass base)).flatMap (·.interfaces)) t) ↔
      types.InScope base.id (properties ++ extra) t := by
  rw [InScope, Layer.bridgeSuperclass, Layer.bridgeInterfaces, hclass]
  refine or_congr_right (reaches_congr fun i => ?_)
  simp only [Bool.false_eq_true, if_false, List.mem_append]
  tauto

/-- A layer on an interface is below the root and extends the interface. -/
theorem Numbered.reaches_above_of_interface (h : types.Numbered) (hstart : initial <:+ types)
    (hbase : types.lookup? base.id = some base) (hinterface : base.isInterface = true) :
    (t ∈ types.lineage (Layer.bridgeSuperclass base) ∨
        types.Reaches (Layer.bridgeInterfaces base properties ++ extra ++
          (types.lineage (Layer.bridgeSuperclass base)).flatMap (·.interfaces)) t) ↔
      t ∈ types.lineage .root ∨ t = base ∨ types.Reaches (base.interfaces ++ (properties ++ extra)) t := by
  obtain ⟨r, hroot, -, hrootInterfaces⟩ := h.lineage_root hstart
  rw [Layer.bridgeSuperclass, Layer.bridgeInterfaces, hinterface, if_pos rfl, if_pos rfl, hroot]
  have hids : base.id :: properties ++ extra ++ [r].flatMap (·.interfaces) =
      [base.id] ++ (properties ++ extra) := by
    simp [hrootInterfaces]
  rw [hids, TypeTable.reaches_append, reaches_singleton hbase, or_assoc (a := t = base),
    ← TypeTable.reaches_append]

/-- Above a layer on a class there is what the class and its interfaces declare. -/
theorem above_iff_of_class (hclass : base.isInterface = false) :
    types.Above base (Layer.bridgeInterfaces base properties ++ extra) m ↔
      types.Declares base.id (properties ++ extra) m :=
  exists_congr fun _ => and_congr_left fun _ => reaches_above_of_class hclass

/-- A layer on an interface is below the root, which declares nothing, and extends the interface. -/
theorem Numbered.above_iff_of_interface (h : types.Numbered) (hstart : initial <:+ types)
    (hbase : types.lookup? base.id = some base) (hinterface : base.isInterface = true) :
    types.Above base (Layer.bridgeInterfaces base properties ++ extra) m ↔
      ∃ t, (t = base ∨ types.Reaches (base.interfaces ++ (properties ++ extra)) t) ∧ m ∈ t.methods := by
  obtain ⟨r, hroot, hrootMethods, -⟩ := h.lineage_root hstart
  refine exists_congr fun t => and_congr_left_iff.2 fun hm => ?_
  rw [h.reaches_above_of_interface hstart hbase hinterface, hroot, List.mem_singleton]
  refine or_iff_right fun heq => ?_
  rw [heq, hrootMethods] at hm
  cases hm

/-- What is declared above a layer on a base is declared by the base or by one of the interfaces. -/
theorem Numbered.declares_of_above (h : types.Numbered) (hstart : initial <:+ types)
    (hbase : types.lookup? base.id = some base)
    (hm : types.Above base (Layer.bridgeInterfaces base properties ++ extra) m) :
    types.Declares base.id (properties ++ extra) m := by
  cases hclass : base.isInterface with
  | false => exact (above_iff_of_class hclass).1 hm
  | true =>
      obtain ⟨t, ht, hm⟩ := (h.above_iff_of_interface hstart hbase hclass).1 hm
      have hself := mem_lineage hbase
      refine ⟨t, ht.imp (fun (heq : t = base) => heq ▸ hself) fun hreaches => hreaches.mono fun i hi => ?_, hm⟩
      exact (List.mem_append.1 hi).elim
        (fun hi => List.mem_append_left _ (List.mem_flatMap.2 ⟨base, hself, hi⟩)) (List.mem_append_right _)

/-- Above a layer on a base there is what the base and its interfaces declare. -/
theorem Numbered.above_iff (h : types.Numbered) (hstart : initial <:+ types)
    (hbase : types.lookup? base.id = some base) (hsuper : base.isInterface = true → base.superclass = none) :
    types.Above base (Layer.bridgeInterfaces base properties ++ extra) m ↔
      types.Declares base.id (properties ++ extra) m := by
  cases hclass : base.isInterface with
  | false => exact above_iff_of_class hclass
  | true =>
      have hlineage := (h.collect_eq hbase (hsuper hclass)).1
      rw [h.above_iff_of_interface hstart hbase hclass, Declares]
      simp only [InScope, hlineage, List.mem_singleton, List.flatMap_cons, List.flatMap_nil, List.append_nil]

end TypeTable

namespace Emitter.Bridge

variable {abstracts : List Method}

/-- The class chain of a bridge is that of what it extends, with the bridge before it. -/
theorem lineage_cons (hb : Bridge types base abstracts properties b) :
    TypeTable.lineage (b :: types) b.id = b :: types.lineage (Layer.bridgeSuperclass base) := by
  rw [TypeTable.lineage, if_pos rfl, hb.superclass]
  rfl

/-- A bridge declares its own methods besides what is declared above it. -/
theorem declares_iff (hb : Bridge types base abstracts properties b)
    (hnumbered : TypeTable.Numbered (b :: types)) (hextra : ∀ i ∈ extra, i.index < types.length) :
    TypeTable.Declares (b :: types) b.id extra m ↔
      m ∈ b.methods ∨ types.Above base (Layer.bridgeInterfaces base properties ++ extra) m := by
  have hgrown : TypeTable.Numbered ([b] ++ types) := hnumbered
  have hinterfaces : b.interfaces = Layer.bridgeInterfaces base properties := hb.interfaces
  have hids : ∀ i ∈ Layer.bridgeInterfaces base properties ++ extra ++
      (types.lineage (Layer.bridgeSuperclass base)).flatMap (·.interfaces), i.index < types.length := by
    simp only [List.mem_append, List.mem_flatMap]
    rintro i ((hi | hi) | ⟨s, hs, hi⟩)
    · exact hnumbered.2.2.1 i (hinterfaces ▸ hi)
    · exact hextra i hi
    · exact (hnumbered.2.2.2.names_lt (TypeTable.mem_of_mem_lineage hs)).2 i hi
  have hreaches (t : HostType) : TypeTable.Reaches (b :: types) (Layer.bridgeInterfaces base properties ++
      (types.lineage (Layer.bridgeSuperclass base)).flatMap (·.interfaces) ++ extra) t ↔
      types.Reaches (Layer.bridgeInterfaces base properties ++ extra ++
        (types.lineage (Layer.bridgeSuperclass base)).flatMap (·.interfaces)) t := by
    rw [← hgrown.reaches_append hids]
    refine TypeTable.reaches_congr fun i => ?_
    simp only [List.mem_append]
    tauto
  simp only [TypeTable.Declares, TypeTable.InScope, TypeTable.Above, hb.lineage_cons, List.flatMap_cons,
    hinterfaces, hreaches, List.mem_cons, or_assoc, or_and_right, exists_or, exists_eq_left]

end Emitter.Bridge

/-! ## Tables -/

namespace Emitter.BuiltBridge

/-- A table lists the slots of what is left without a body or declared above the bridge and may be taken over,
unless there is a final declaration of the slot or the slot is that of an accessor of a property. -/
theorem mem_slots_iff_above (h : e.BuiltBridge types base properties pairs b)
    (hnumbered : TypeTable.Numbered (b :: types)) (hextra : ∀ i ∈ extra, i.index < types.length) :
    s ∈ (TypeTable.harvest (b :: types) b.id extra).map (·.slot) ↔
      (s ∈ (types.harvestAbstract base.id properties).map (·.slot) ∨
        ∃ m, types.Above base (Layer.bridgeInterfaces base properties ++ extra) m ∧ m.slot = s ∧
          m.isOffered = true) ∧
      (∀ m, types.Above base (Layer.bridgeInterfaces base properties ++ extra) m → m.slot = s →
        m.modifiers.isFinal = false) ∧
      s ∉ pairs.flatMap fun p => [p.getter.slot, p.setter.slot] := by
  have hdeclares (m : Method) := h.isBridge.declares_iff hnumbered hextra (m := m)
  have hstub {n op : Method} (hop : op ∈ types.harvestAbstract base.id properties) (hslot : n.slot = op.slot)
      (hmodifiers : n.modifiers = Layer.overrideModifiers op) : n.isOffered = true :=
    (Layer.isOffered_of_stub hslot hmodifiers).trans
      (Emitter.Bridge.offered_of_mem_harvest (List.mem_filter.1 hop).1).1
  have hopen {n : Method} (hn : n.isOffered = true) : n.modifiers.isFinal = false := by
    rw [Method.isOffered, Bool.and_eq_true, Bool.not_eq_true'] at hn
    exact hn.1
  rw [hnumbered.mem_slots_harvest]
  constructor
  · rintro ⟨⟨m, hm, rfl, hoffered⟩, hall⟩
    have hunclaimed : m.slot ∉ pairs.flatMap fun p => [p.getter.slot, p.setter.slot] := by
      intro hclaimed
      obtain ⟨n, hn, hslot, hown⟩ := h.exists_own hclaimed
      have hfinal := hall n ((hdeclares n).2 (.inl hn)) hslot
      rw [hown] at hfinal
      cases hfinal
    refine ⟨?_, fun n hn => hall n ((hdeclares n).2 (.inr hn)), hunclaimed⟩
    rcases (hdeclares m).1 hm with hown | habove
    · rcases h.method_cases hown with ⟨-, hclaimed⟩ | ⟨op, hop, hslot, -⟩
      · exact absurd hclaimed hunclaimed
      · exact .inl (hslot ▸ List.mem_map_of_mem hop)
    · exact .inr ⟨m, habove, rfl, hoffered⟩
  · rintro ⟨hsome, hall, hunclaimed⟩
    refine ⟨?_, fun n hn hslot => ?_⟩
    · rcases hsome with hs | ⟨m, hm, hslot, hoffered⟩
      · obtain ⟨op, hop, rfl⟩ := List.mem_map.1 hs
        have hclaimed : Layer.isClaimed pairs op = false :=
          Bool.eq_false_iff.2 fun hclaimed => hunclaimed (Layer.isClaimed_iff.1 hclaimed)
        obtain ⟨n, hn, hslot, hmodifiers⟩ := h.exists_stub hop hclaimed
        exact ⟨n, (hdeclares n).2 (.inl hn), hslot, hstub hop hslot hmodifiers⟩
      · exact ⟨m, (hdeclares m).2 (.inr hm), hslot, hoffered⟩
    · rcases (hdeclares n).1 hn with hn | hn
      · rcases h.method_cases hn with ⟨-, hclaimed⟩ | ⟨op, hop, hopslot, hmodifiers, -⟩
        · exact absurd (hslot ▸ hclaimed) hunclaimed
        · exact hopen (hstub hop hopslot hmodifiers)
      · exact hall n hn hslot

/-- Whatever is taken over above a bridge is declared above its base by something that may be taken over. -/
theorem declares_of_mem_slots (h : e.BuiltBridge types base properties pairs b)
    (hnumbered : TypeTable.Numbered (b :: types)) (hstart : TypeTable.initial <:+ types)
    (hbase : types.lookup? base.id = some base) (hextra : ∀ i ∈ extra, i.index < types.length)
    (hs : s ∈ (TypeTable.harvest (b :: types) b.id extra).map (·.slot)) :
    ∃ m, types.Declares base.id (properties ++ extra) m ∧ m.slot = s ∧ m.isOffered = true := by
  rcases ((h.mem_slots_iff_above hnumbered hextra).1 hs).1 with hs | ⟨m, hm, hslot, hoffered⟩
  · obtain ⟨op, hop, rfl⟩ := List.mem_map.1 hs
    have hharvest := (List.mem_filter.1 hop).1
    have hdeclared := hnumbered.2.2.2.mem_sources.1 (List.mem_of_find?_eq_some (mem_intercept.1 hharvest).2)
    exact ⟨op, hdeclared.mono fun i => List.mem_append_left _, rfl,
      (Emitter.Bridge.offered_of_mem_harvest hharvest).1⟩
  · exact ⟨m, hnumbered.2.2.2.declares_of_above hstart hbase hm, hslot, hoffered⟩

/-- A table lists the slots of what is declared above the base and may be taken over, unless there is a
final declaration of the slot or the slot is that of an accessor of a property. -/
theorem mem_slots (h : e.BuiltBridge types base properties pairs b)
    (hnumbered : TypeTable.Numbered (b :: types)) (hstart : TypeTable.initial <:+ types)
    (hbase : types.lookup? base.id = some base)
    (hsuper : base.isInterface = true → base.superclass = none)
    (hextra : ∀ i ∈ extra, i.index < types.length) :
    s ∈ (TypeTable.harvest (b :: types) b.id extra).map (·.slot) ↔
      (∃ m, types.Declares base.id (properties ++ extra) m ∧ m.slot = s ∧ m.isOffered = true) ∧
      (∀ m, types.Declares base.id (properties ++ extra) m → m.slot = s → m.modifiers.isFinal = false) ∧
      s ∉ pairs.flatMap fun p => [p.getter.slot, p.setter.slot] := by
  have habove (m : Method) : types.Above base (Layer.bridgeInterfaces base properties ++ extra) m ↔
      types.Declares base.id (properties ++ extra) m := hnumbered.2.2.2.above_iff hstart hbase hsuper
  constructor
  · intro hs
    obtain ⟨-, hopen, hunclaimed⟩ := (h.mem_slots_iff_above hnumbered hextra).1 hs
    exact ⟨h.declares_of_mem_slots hnumbered hstart hbase hextra hs, fun m hm => hopen m ((habove m).2 hm),
      hunclaimed⟩
  · rintro ⟨⟨m, hm, hoffered⟩, hopen, hunclaimed⟩
    exact (h.mem_slots_iff_above hnumbered hextra).2 ⟨.inr ⟨m, (habove m).2 hm, hoffered⟩,
      fun n hn => hopen n ((habove n).1 hn), hunclaimed⟩

end Emitter.BuiltBridge

/-! ## Tables on request -/

theorem mem_insertId {id i : TypeId} {ids : List TypeId} : i ∈ insertId id ids ↔ i = id ∨ i ∈ ids := by
  induction ids with
  | nil => simp [insertId]
  | cons other rest ih =>
      rw [insertId]
      split
      · rw [List.mem_cons]
      · split
        · rename_i heq
          rw [heq, List.mem_cons, ← or_assoc, or_self]
        · rw [List.mem_cons, ih, List.mem_cons, or_left_comm]

/-- Sorting identities keeps them all. -/
theorem mem_sortedIds {i : TypeId} {ids : List TypeId} : i ∈ sortedIds ids ↔ i ∈ ids := by
  induction ids with
  | nil => exact Iff.rfl
  | cons id ids ih =>
      rw [List.mem_cons, ← ih]
      exact mem_insertId

/-- Leaving out repetitions keeps all identities. -/
theorem mem_dedupIds {i : TypeId} {ids : List TypeId} : i ∈ dedupIds ids ↔ i ∈ ids := by
  refine ⟨mem_of_mem_dedupIds, fun h => ?_⟩
  have hfold : ∀ ids found : List TypeId, i ∈ found ∨ i ∈ ids → i ∈ ids.foldl (fun found id =>
      if found.contains id then found else found ++ [id]) found := by
    intro ids
    induction ids with
    | nil => exact fun found h => h.resolve_right List.not_mem_nil
    | cons id ids ih =>
        intro found h
        refine ih _ ?_
        dsimp only
        split
        · rename_i hcontains
          rcases h with h | h
          · exact .inl h
          · rcases List.mem_cons.1 h with rfl | h
            · exact .inl (List.contains_iff_mem.1 hcontains)
            · exact .inr h
        · rcases h with h | h
          · exact .inl (List.mem_append_left _ h)
          · rcases List.mem_cons.1 h with rfl | h
            · exact .inl (List.mem_append_right _ List.mem_cons_self)
            · exact .inr h
  exact hfold ids [] (.inr h)

/-- What the layers of a subtype name besides the base is there if what is asked for is. -/
theorem TypeTable.index_lt_of_asked (hstart : initial <:+ types)
    (h : ∀ i ∈ interfaces ++ properties, i.index < types.length) :
    ∀ i ∈ properties ++ (dedupIds interfaces ++ [.capability]), i.index < types.length := by
  simp only [List.mem_append, mem_dedupIds, List.mem_singleton]
  rintro i (hi | hi | rfl)
  · exact h i (List.mem_append_right _ hi)
  · exact h i (List.mem_append_left _ hi)
  · exact hstart.length_le

/-- There is no class among some types exactly if all of them are interfaces. -/
theorem World.classAmong?_eq_none_iff {ids : List TypeId} : w.classAmong? ids = none ↔
    ∀ i ∈ ids, ∀ s, w.types.lookup? i = some s → s.isInterface = true := by
  simp only [classAmong?, List.find?_eq_none, List.mem_filterMap, Bool.not_eq_true', Bool.not_eq_false]
  exact ⟨fun h i hi s hs => h s ⟨i, hi, hs⟩, fun h s ⟨i, hi, hs⟩ => h i hi s hs⟩

/-- A request is refused if it names a class as an interface. -/
theorem World.interfaces_of_createExtensionType {p : PlatformId} {base proxy : TypeId} {parent : Loader}
    (h : w.createExtensionType p base interfaces properties parent = (.ok proxy, w')) :
    ∀ i ∈ interfaces ++ properties, ∀ s, w.types.lookup? i = some s → s.isInterface = true := by
  rw [createExtensionType] at h
  split at h
  · cases h
  · cases h
  · rename_i hinterfaces hproperties
    exact List.forall_mem_append.2 ⟨classAmong?_eq_none_iff.1 hinterfaces, classAmong?_eq_none_iff.1 hproperties⟩

/-- What answers a request: two layers that were built on an older table for the same base and the same
sets of interfaces. -/
structure World.Answered (w : World) (e : Emitter) (older : TypeTable) (w₀ : World) (base : HostType)
    (interfaces properties interfaces' properties' : List TypeId) (pairs : List PropertyPair)
    (b t : HostType) : Prop where
  stands : w.Stands e older w₀ base interfaces' properties' b t
  built : e.Built older base interfaces' properties' pairs b t
  interfaces : ∀ i, i ∈ interfaces' ↔ i ∈ interfaces
  properties : ∀ i, i ∈ properties' ↔ i ∈ properties
  declared : ∀ i ∈ interfaces' ++ properties', i.index < older.length

/-- What a subtype names was there before its layers, unless it names its bridge. -/
theorem World.Stands.index_lt_older {e : Emitter} {older : TypeTable} {w₀ : World} {pairs : List PropertyPair}
    {b t : HostType} (h : w.Stands e older w₀ base interfaces properties b t)
    (hbuilt : e.Built older base interfaces properties pairs b t) (hbridge : b.id ∉ interfaces) {i : TypeId}
    (hi : i ∈ interfaces ++ properties) : i.index < older.length := by
  have hlayers := h.numbered_layers
  rw [h.types] at hlayers
  rcases List.mem_append.1 hi with hi | hi
  · have hle : i.index < older.length + 1 := by
      refine hlayers.2.2.1 i ?_
      rw [h.proxy.interfaces]
      exact List.mem_append_left _ (mem_dedupIds.2 hi)
    -- the one type that is added before the proxy is the bridge
    rcases Nat.lt_succ_iff_lt_or_eq.1 hle with hlt | heq
    · exact hlt
    obtain ⟨d, -, hdefines⟩ := hbuilt.bridge
    have hib : i = b.id := by
      rw [hdefines.id]
      exact congrArg TypeId.mk heq
    exact absurd (hib ▸ hi) hbridge
  · refine hlayers.2.2.2.2.2.1 i ?_
    rw [h.bridge.interfaces]
    split
    · exact List.mem_cons_of_mem _ hi
    · exact hi

/-- In a sane world, a request is answered by layers that were built for it, and the platform provides them. -/
theorem World.provides_of_createExtensionType {p : PlatformId} {proxy : TypeId} {parent : Loader}
    (hs : w.Sane) (hp : p.index < w.platforms.size)
    (hdeclared : ∀ i ∈ base.id :: (interfaces ++ properties), i.index < w.types.length)
    (hbase : w.types.lookup? base.id = some base)
    (h : w.createExtensionType p base.id interfaces properties parent = (.ok proxy, w')) :
    ∃ e older w₀ interfaces' properties' pairs b t, proxy = t.id ∧
      w'.Provides p base interfaces' properties' t ∧
      w'.Answered e older w₀ base interfaces properties interfaces' properties' pairs b t := by
  obtain ⟨hlater, hanswers⟩ := later_createExtensionType (w := w) p parent fun _ => hdeclared
  obtain ⟨base', interfaces', properties', loader, t, hkey, hid, hprovides⟩ := hanswers proxy w' h hs hp
  rw [h] at hlater
  obtain ⟨hbaseId, hinterfaces, hproperties, -⟩ := CacheKey.mk.inj hkey
  obtain ⟨e, older, w₀, pairs, b, hstands, hbuilt⟩ := hprovides.subtype.built
  obtain ⟨grown, hgrown⟩ := hlater.types
  have hnumbered : TypeTable.Numbered (grown ++ w.types) := hgrown ▸ hstands.numbered
  have hlookup (i : TypeId) (hi : i.index < w.types.length) :
      w'.types.lookup? i = w.types.lookup? i := by
    rw [← hgrown]
    exact hnumbered.lookup?_append hi
  obtain ⟨new, hall, hnew, hlt⟩ := hstands.grown_base
  -- the base is the type that the request names
  have hsame : base' = base := by
    have hbase' : w'.types.lookup? base'.id = some base' := by
      rw [hall, hnew.lookup?_append hlt, hstands.base]
    rw [← hbaseId, hlookup _ (hdeclared _ List.mem_cons_self), hbase] at hbase'
    exact (Option.some.inj hbase').symm
  subst hsame
  have hinterfaces' (i : TypeId) : i ∈ interfaces' ↔ i ∈ interfaces := by
    rw [← mem_sortedIds, ← hinterfaces, mem_sortedIds]
  have hproperties' (i : TypeId) : i ∈ properties' ↔ i ∈ properties := by
    rw [← mem_sortedIds, ← hproperties, mem_sortedIds]
  refine ⟨e, older, w₀, interfaces', properties', pairs, b, t, hid, hprovides, hstands, hbuilt, hinterfaces',
    hproperties', fun i hi => hstands.index_lt_older hbuilt (fun hmem => ?_) hi⟩
  -- the bridge is a class, and a request names interfaces only
  obtain ⟨d, -, hdefines⟩ := hbuilt.bridge
  have hmem : b.id ∈ interfaces := (hinterfaces' b.id).1 hmem
  have hlt : b.id.index < w.types.length := hdeclared b.id (List.mem_cons_of_mem _ (List.mem_append_left _ hmem))
  have hb : w'.types.lookup? b.id = some b := by
    obtain ⟨front, hfront⟩ := hstands.grown
    refine hstands.numbered.lookup?_of_mem ?_
    rw [← hfront, hstands.types]
    simp
  rw [hlookup b.id hlt] at hb
  have hinterface := interfaces_of_createExtensionType h b.id (List.mem_append_left _ hmem) b hb
  rw [HostType.isInterface, hdefines.kind] at hinterface
  cases hinterface

/-- In a sane world, a request is answered by layers that were built for it. -/
theorem World.answered_of_createExtensionType {p : PlatformId} {proxy : TypeId} {parent : Loader}
    (hs : w.Sane) (hp : p.index < w.platforms.size)
    (hdeclared : ∀ i ∈ base.id :: (interfaces ++ properties), i.index < w.types.length)
    (hbase : w.types.lookup? base.id = some base)
    (h : w.createExtensionType p base.id interfaces properties parent = (.ok proxy, w')) :
    ∃ e older w₀ interfaces' properties' pairs b t, proxy = t.id ∧
      w'.Answered e older w₀ base interfaces properties interfaces' properties' pairs b t := by
  obtain ⟨e, older, w₀, interfaces', properties', pairs, b, t, hid, -, ha⟩ :=
    provides_of_createExtensionType hs hp hdeclared hbase h
  exact ⟨e, older, w₀, interfaces', properties', pairs, b, t, hid, ha⟩

namespace World.Answered

variable {older : TypeTable} {w₀ : World} {interfaces' properties' : List TypeId}

/-- What the base has in scope is what it had when the layers were built. -/
theorem inScope_iff
    (h : w'.Answered e older w₀ base interfaces properties interfaces' properties' pairs b t)
    (hgrown : w.types <:+ w'.types) (hstart : TypeTable.initial <:+ w.types)
    (hdeclared : ∀ i ∈ base.id :: (interfaces ++ properties), i.index < w.types.length) {s : HostType} :
    older.InScope base.id (properties' ++ (dedupIds interfaces' ++ [.capability])) s ↔
      w.types.InScope base.id (interfaces ++ properties ++ [.capability]) s := by
  obtain ⟨new, hnew, hnumbered, hlt⟩ := h.stands.grown_base
  obtain ⟨grown, hgrown⟩ := hgrown
  have hnumbered' : TypeTable.Numbered (grown ++ w.types) := hgrown ▸ h.stands.numbered
  have holder := TypeTable.index_lt_of_asked h.stands.start h.declared
  have hasked : ∀ i ∈ interfaces ++ properties ++ [.capability], i.index < w.types.length := by
    intro i hi
    rcases List.mem_append.1 hi with hi | hi
    · exact hdeclared i (List.mem_cons_of_mem _ hi)
    · rw [List.mem_singleton.1 hi]
      exact hstart.length_le
  rw [← hnumbered.inScope_append hlt holder, ← hnew,
    ← hnumbered'.inScope_append (hdeclared _ List.mem_cons_self) hasked, hgrown]
  refine or_congr_right (TypeTable.reaches_congr fun i => ?_)
  simp only [List.mem_append, mem_dedupIds, h.interfaces, h.properties]
  tauto

/-- What is declared above the base is what was declared when the layers were built. -/
theorem declares_iff
    (h : w'.Answered e older w₀ base interfaces properties interfaces' properties' pairs b t)
    (hgrown : w.types <:+ w'.types) (hstart : TypeTable.initial <:+ w.types)
    (hdeclared : ∀ i ∈ base.id :: (interfaces ++ properties), i.index < w.types.length) :
    older.Declares base.id (properties' ++ (dedupIds interfaces' ++ [.capability])) m ↔
      w.types.Declares base.id (interfaces ++ properties ++ [.capability]) m :=
  exists_congr fun _ => and_congr_left fun _ => h.inScope_iff hgrown hstart hdeclared

/-- The properties are those that were paired when the layers were built. -/
theorem harvestProperties
    (h : w'.Answered e older w₀ base interfaces properties interfaces' properties' pairs b t)
    (hgrown : w.types <:+ w'.types) (hdeclared : ∀ i ∈ properties, i.index < w.types.length) :
    ∃ pairs', w.types.harvestProperties properties = .ok pairs' ∧
      pairs'.map (·.shape) = pairs.map (·.shape) := by
  obtain ⟨new, hnew, hnumbered, -⟩ := h.stands.grown_base
  obtain ⟨grown, hgrown⟩ := hgrown
  have hnumbered' : TypeTable.Numbered (grown ++ w.types) := hgrown ▸ h.stands.numbered
  have holder : ∀ i ∈ properties', i.index < older.length :=
    fun i hi => h.declared i (List.mem_append_right _ hi)
  have hasked : ∀ i ∈ properties', i.index < w.types.length :=
    fun i hi => hdeclared i ((h.properties i).1 hi)
  refine TypeTable.harvestProperties_congr h.properties ?_
  rw [← hnumbered'.harvestProperties_append hasked, hgrown, hnew, hnumbered.harvestProperties_append holder]
  exact h.built.paired

/-- A subtype lists the slots of what is declared above its base and may be taken over, unless there is a final
declaration of the slot or the slot is that of an accessor of a property. -/
theorem mem_slots
    (h : w'.Answered e older w₀ base interfaces properties interfaces' properties' pairs b t)
    (hgrown : w.types <:+ w'.types) (hstart : TypeTable.initial <:+ w.types)
    (hdeclared : ∀ i ∈ base.id :: (interfaces ++ properties), i.index < w.types.length)
    (hsuper : base.isInterface = true → base.superclass = none) :
    s ∈ (w₀.types.harvest b.id (dedupIds interfaces' ++ [.capability])).map (·.slot) ↔
      (∃ m, w.types.Declares base.id (interfaces ++ properties ++ [.capability]) m ∧ m.slot = s ∧
        m.isOffered = true) ∧
      (∀ m, w.types.Declares base.id (interfaces ++ properties ++ [.capability]) m → m.slot = s →
        m.modifiers.isFinal = false) ∧
      s ∉ pairs.flatMap fun p => [p.getter.slot, p.setter.slot] := by
  obtain ⟨hproperties, hextra⟩ := List.forall_mem_append.1 (TypeTable.index_lt_of_asked h.stands.start h.declared)
  obtain ⟨new, -, hnumbered, -⟩ := h.stands.grown_base
  have hnumbered' := h.stands.bridge.numbered hnumbered.of_append h.stands.start h.stands.base hproperties
  rw [h.stands.types, h.built.mem_slots hnumbered' h.stands.start h.stands.base hsuper hextra]
  simp only [h.declares_iff hgrown hstart hdeclared]

end World.Answered

end Interpose
