import Interpose.Proofs.Listing
import Interpose.Proofs.Lookups
import Interpose.Proofs.Overrides
import Interpose.Proofs.Registries

/-!
# Subtypes of subtypes

A subtype can be extended again. What it lists is listed by the new subtype as well, unless something further
closes the slot, and its own accessors are final, so that no accessor is made for them. Whatever is requested, the
arrays with the numbers of operations stay as they are.
-/

namespace Interpose

/-! ## Arrays that requests keep -/

/-- Whether the arrays of a world are still there in another one as they were. -/
def World.KeepsArrays (w w' : World) : Prop := ∀ (i : Nat) items, w.arrays[i]? = some items → w'.arrays[i]? = some items

namespace World

variable {w w' w'' : World} {p : PlatformId} {base t : HostType} {interfaces properties : List TypeId}
  {parent : Loader} {id : TypeId}

theorem KeepsArrays.refl (w : World) : w.KeepsArrays w := fun _ _ h => h

theorem KeepsArrays.trans (h : w.KeepsArrays w') (h' : w'.KeepsArrays w'') : w.KeepsArrays w'' :=
  fun i items hi => h' i items (h i items hi)

/-- A table is kept where arrays are. -/
theorem KeepsTable.of_keepsArrays (h : w.KeepsTable t) (hkeeps : w.KeepsArrays w') : w'.KeepsTable t :=
  fun g hg => hkeeps _ _ (h g hg)

/-- A definition adds at most an array. -/
theorem keepsArrays_of_define {e : Emitter} {d : ClassDef} {loader : Loader}
    (h : e.define w d loader = .ok (id, w')) : w.KeepsArrays w' := by
  obtain ⟨-, -, -, ctors, methods, -, -, rfl⟩ := Emitter.define_eq_ok h
  intro i items hi
  cases d.generated with
  | none => exact hi
  | some g =>
      have hlt := (Array.getElem?_eq_some_iff.1 hi).1
      exact (Array.getElem?_push.trans (if_neg (Nat.ne_of_lt hlt))).trans hi

/-- The layers of a subtype keep arrays. -/
theorem keptByLayers_keepsArrays (w : World) : KeptByLayers w.KeepsArrays where
  bridge h _ hbridge := by
    obtain ⟨_, -, hdefine⟩ := bind_eq_ok.1 hbridge
    exact h.trans (keepsArrays_of_define hdefine)
  proxy h _ hproxy := by
    obtain ⟨_, -, hdefine⟩ := bind_eq_ok.1 hproxy
    exact h.trans (keepsArrays_of_define hdefine)
  rest h _ harrays _ _ _ := fun i items hi => harrays ▸ h i items hi

/-- A request keeps arrays. -/
theorem keepsArrays_createExtensionType (p : PlatformId) (base : TypeId) (interfaces properties : List TypeId)
    (parent : Loader) (w : World) :
    w.KeepsArrays (w.createExtensionType p base interfaces properties parent).2 :=
  (keptByLayers_keepsArrays w).createExtensionType p base interfaces properties parent (.refl w)

/-- A subtype that is generated for a request has its table. -/
theorem keepsTable_of_createExtensionType {base : HostType} (hs : w.Sane) (hp : p.index < w.platforms.size)
    (hsound : (w.platform p).registry.Sound w.types)
    (hdeclared : ∀ i ∈ base.id :: (interfaces ++ properties), i.index < w.types.length)
    (hbase : w.types.lookup? base.id = some base)
    (hnew : (w.platform p).registry.get? (CacheKey.of base.id interfaces properties parent) = none)
    (h : w.createExtensionType p base.id interfaces properties parent = (.ok t.id, w'))
    (hlookup : w'.types.lookup? t.id = some t) : w'.KeepsTable t := by
  rcases createExtensionType_cases hp hsound h with
    ⟨fault, hfault, -⟩ | ⟨id, hid, ⟨hknown, -⟩ | ⟨-, -, w₁, hgenerate, hw'⟩⟩
  · cases hfault
  · cases hnew.symm.trans hknown
  cases hid
  obtain ⟨hinterfaces, hproperties⟩ := List.forall_mem_append.1 (List.forall_mem_cons.1 hdeclared).2
  obtain ⟨s, hid, -, hroutes⟩ := hasSubtype_of_generate hs.numbered hs.start hbase hinterfaces hproperties
    (hs.routing p hp) (hs.accessors p) hgenerate
  have htypes : w'.types = w₁.types := (congrArg World.types hw').trans rfl
  have harrays : w'.arrays = w₁.arrays := (congrArg World.arrays hw').trans rfl
  have hsame := hroutes.lookup
  rw [← hid, ← htypes, hlookup] at hsame
  obtain rfl := Option.some.inj hsame
  intro g hg
  rw [harrays]
  exact hroutes.table g hg

end World

/-! ## Extending a subtype -/

section

variable {e : Emitter} {w w' w₀ : World} {older : TypeTable} {base b t : HostType}
  {interfaces properties interfaces' properties' extra : List TypeId} {pairs : List PropertyPair} {m : Method}
  {s : Slot}

/-- A subtype has its two layers in scope, what is above them, and what is reached from further interfaces. -/
theorem World.Stands.inScope_iff (h : w.Stands e older w₀ base interfaces properties b t)
    (hinterfaces : ∀ i ∈ interfaces, i.index < older.length) {s : HostType} :
    w.types.InScope t.id extra s ↔ s = t ∨ s = b ∨
      (s ∈ older.lineage (Layer.bridgeSuperclass base) ∨
        older.Reaches (Layer.bridgeInterfaces base properties ++ (dedupIds interfaces ++ [.capability]) ++
          (older.lineage (Layer.bridgeSuperclass base)).flatMap (·.interfaces)) s) ∨
      w.types.Reaches extra s := by
  obtain ⟨new, hnew, hnumbered, -⟩ := h.grown_base
  have hlayers := h.numbered_layers
  rw [h.types] at hlayers
  have hbnamed := h.bridge.named_lt hlayers.2.2.2
  have hnamed : ∀ i ∈ Layer.bridgeInterfaces base properties ++ (dedupIds interfaces ++ [.capability]) ++
      (older.lineage (Layer.bridgeSuperclass base)).flatMap (·.interfaces), i.index < older.length := by
    simp only [List.forall_mem_append] at hbnamed ⊢
    exact ⟨⟨hbnamed.1, fun i hi => hinterfaces i (mem_dedupIds.1 hi),
      List.forall_mem_singleton.2 h.start.length_le⟩, hbnamed.2⟩
  have hreaches : w.types.Reaches ((w.types.lineage t.id).flatMap (·.interfaces) ++ extra) s ↔
      older.Reaches (Layer.bridgeInterfaces base properties ++ (dedupIds interfaces ++ [.capability]) ++
        (older.lineage (Layer.bridgeSuperclass base)).flatMap (·.interfaces)) s ∨ w.types.Reaches extra s := by
    rw [TypeTable.reaches_append, ← hnumbered.reaches_append hnamed, ← hnew, h.lineage_layers]
    refine or_congr_left (TypeTable.reaches_congr fun i => ?_)
    simp only [List.flatMap_cons, h.proxy.interfaces, h.bridge.interfaces, List.mem_append,
      Layer.bridgeInterfaces]
    tauto
  rw [TypeTable.InScope, hreaches, h.lineage_layers]
  simp only [List.mem_cons, or_assoc]

/-- A subtype declares what its two layers have, what is above them, and what further interfaces declare. -/
theorem World.Stands.declares_iff (h : w.Stands e older w₀ base interfaces properties b t)
    (hinterfaces : ∀ i ∈ interfaces, i.index < older.length) :
    w.types.Declares t.id extra m ↔ m ∈ t.methods ++ b.methods ∨
      older.Above base (Layer.bridgeInterfaces base properties ++ (dedupIds interfaces ++ [.capability])) m ∨
      ∃ s, w.types.Reaches extra s ∧ m ∈ s.methods := by
  simp only [TypeTable.Declares, h.inScope_iff hinterfaces, TypeTable.Above, List.mem_append, or_assoc, or_and_right,
    exists_or, exists_eq_left]

/-- What stands of a subtype stays while types are added. -/
theorem World.Stands.later (h : w.Stands e older w₀ base interfaces properties b t) (hgrown : w.types <:+ w'.types)
    (hnumbered : w'.types.Numbered) : w'.Stands e older w₀ base interfaces properties b t :=
  { h with
    grown := h.grown.trans hgrown
    numbered := hnumbered }

/-- A class that is extended is in the class chain of the subtype. -/
theorem World.Stands.mem_lineage_base (h : w.Stands e older w₀ base interfaces properties b t)
    (hclass : base.isInterface = false) : base ∈ w.types.lineage t.id := by
  rw [h.lineage_layers, Layer.bridgeSuperclass, hclass]
  exact List.mem_cons_of_mem _ (List.mem_cons_of_mem _ (TypeTable.mem_lineage h.base))

namespace World.Answered

section

variable (h : w'.Answered e older w₀ base interfaces properties interfaces' properties' pairs b t)

include h

/-- What a subtype lists it has a thunk of, which may be taken over again. -/
theorem exists_thunk (hs : s ∈ (w₀.types.harvest b.id (dedupIds interfaces' ++ [.capability])).map (·.slot)) :
    ∃ m ∈ t.methods, m.slot = s ∧ m.isOffered = true := by
  obtain ⟨op, hop, rfl⟩ := List.mem_map.1 hs
  obtain ⟨i, hi⟩ := List.getElem?_of_mem hop
  obtain ⟨thunk, _, hthunk, hslot, hmodifiers, -⟩ := h.stands.proxy.runTask_thunk hi
  refine ⟨thunk, List.mem_of_getElem? hthunk, hslot, ?_⟩
  rw [Layer.isOffered_of_stub hslot hmodifiers]
  exact (Emitter.Bridge.offered_of_mem_harvest hop).1

/-- What the layers of a subtype have that may not be taken over are accessors, of properties or of operations. -/
theorem slot_of_closed (hm : m ∈ t.methods ++ b.methods) (hclosed : m.isOffered = false) :
    m.slot ∈ (pairs.flatMap fun p => [p.getter.slot, p.setter.slot]) ∨
      ∃ op ∈ w₀.types.harvest b.id (dedupIds interfaces' ++ [.capability]), m.slot = op.slot.accessor := by
  rcases List.mem_append.1 hm with hm | hm
  · obtain ⟨j, hj, rfl⟩ := List.getElem_of_mem hm
    obtain ⟨q, hq, ⟨heven, hslot, hmodifiers⟩ | ⟨hodd, -⟩⟩ := h.stands.proxy.getElem_methods hj
    · have hoffered := (Layer.isOffered_of_stub hslot hmodifiers).trans
        (Emitter.Bridge.offered_of_mem_harvest (List.mem_of_getElem? hq)).1
      rw [hoffered] at hclosed
      cases hclosed
    · obtain ⟨_, _, -, -, hupward⟩ := h.stands.proxy.upward hq
      rw [show 2 * (j / 2) + 1 = j by omega] at hupward
      refine .inr ⟨q, List.mem_of_getElem? hq, ?_⟩
      rw [(List.getElem?_eq_some_iff.1 hupward).2]
      rfl
  · rcases h.built.method_cases hm with ⟨-, hclaimed⟩ | ⟨op, hop, hslot, hmodifiers, -⟩
    · exact .inl hclaimed
    · have hoffered := (Layer.isOffered_of_stub hslot hmodifiers).trans
        (Emitter.Bridge.offered_of_mem_harvest (List.mem_filter.1 hop).1).1
      rw [hoffered] at hclosed
      cases hclosed

/-- What the layers of a subtype have is declared by layers. -/
theorem declaring_eq (hm : m ∈ t.methods ++ b.methods) : ∃ role, m.declaring = Naming.layer base.name role := by
  obtain ⟨d, hd, hb⟩ := h.built.bridge
  obtain ⟨d', hd', ht⟩ := h.built.proxy
  obtain ⟨_, _, _, -, -, -, rfl⟩ := Layer.bridgeDef_eq_ok_iff.1 hd
  obtain ⟨_, _, -, -, rfl⟩ := Layer.proxyDef_eq_ok_iff.1 hd'
  rcases List.mem_append.1 hm with hm | hm
  · exact ⟨.proxy, (ht.declaring_eq hm).trans ht.name⟩
  · exact ⟨.bridge, (hb.declaring_eq hm).trans hb.name⟩

/-- What a subtype takes over is declared by its bridge or above that. -/
theorem declares_of_mem (hgrown : w.types <:+ w'.types) (hstart : TypeTable.initial <:+ w.types)
    (hdeclared : ∀ i ∈ base.id :: (interfaces ++ properties), i.index < w.types.length)
    (hm : m ∈ w₀.types.harvest b.id (dedupIds interfaces' ++ [.capability])) :
    m ∈ b.methods ∨ w.types.Declares base.id (interfaces ++ properties ++ [.capability]) m := by
  obtain ⟨-, hextra⟩ := List.forall_mem_append.1 (TypeTable.index_lt_of_asked h.stands.start h.declared)
  have hnumbered := h.stands.numbered_layers
  rw [h.stands.types] at hnumbered hm
  have hsource := hnumbered.2.2.2.mem_sources.1 (List.mem_of_find?_eq_some (mem_intercept.1 hm).2)
  refine ((h.built.isBridge.declares_iff hnumbered.2.2.2 hextra).1 hsource).imp_right fun habove => ?_
  rw [← h.declares_iff hgrown hstart hdeclared]
  exact hnumbered.2.2.2.2.2.2.declares_of_above h.stands.start h.stands.base habove

/-- Calls reach what a subtype takes over if they reach all that may be taken over of its slot. -/
theorem isVirtual_of_mem (hgrown : w.types <:+ w'.types) (hstart : TypeTable.initial <:+ w.types)
    (hdeclared : ∀ i ∈ base.id :: (interfaces ++ properties), i.index < w.types.length)
    (hall : ∀ n, w.types.Declares base.id (interfaces ++ properties ++ [.capability]) n → n.slot = m.slot →
      n.isOffered = true → n.isVirtual = true)
    (hm : m ∈ w₀.types.harvest b.id (dedupIds interfaces' ++ [.capability])) : m.isVirtual = true := by
  have hoffered := (Emitter.Bridge.offered_of_mem_harvest hm).1
  rcases h.declares_of_mem hgrown hstart hdeclared hm with hown | hdeclares
  · rcases h.built.method_cases hown with ⟨hfinal, -⟩ | ⟨a, ha, hslot, hmodifiers, -⟩
    · rw [(Method.isOffered_iff.1 hoffered).1] at hfinal
      cases hfinal
    · -- a stub is reached as what it stands for, which was declared before
      obtain ⟨new, -, hnumbered, -⟩ := h.stands.grown_base
      have hfirst := (mem_intercept.1 (List.mem_filter.1 ha).1).2
      have hsource := hnumbered.of_append.mem_sources.1 (List.mem_of_find?_eq_some hfirst)
      have haoffered := List.find?_some hfirst
      rw [Layer.isVirtual_of_modifiers hmodifiers]
      exact hall a ((h.declares_iff hgrown hstart hdeclared).1 (hsource.mono fun i hi => List.mem_append_left _ hi))
        hslot.symm (Bool.and_eq_true_iff.1 haoffered).1
  · exact hall m hdeclares rfl hoffered

/-- What a subtype has itself and is not final is the thunk of a slot that it lists. -/
theorem mem_slots_of_own (hm : m ∈ t.methods) (hopen : m.modifiers.isFinal = false) :
    m.slot ∈ (w₀.types.harvest b.id (dedupIds interfaces' ++ [.capability])).map (·.slot) := by
  obtain ⟨j, hj, rfl⟩ := List.getElem_of_mem hm
  obtain ⟨q, hq, ⟨-, hslot, -⟩ | ⟨hodd, -⟩⟩ := h.stands.proxy.getElem_methods hj
  · rw [hslot]
    exact List.mem_map_of_mem (List.mem_of_getElem? hq)
  · -- the other ones are accessors, which are final
    obtain ⟨_, _, -, -, hupward⟩ := h.stands.proxy.upward hq
    rw [show 2 * (j / 2) + 1 = j by omega] at hupward
    rw [(List.getElem?_eq_some_iff.1 hupward).2] at hopen
    have hown : Layer.ownModifiers.isFinal = false := hopen
    exact absurd hown (by decide)

/-- What the layers of a subtype have or what is above them has a slot that the subtype lists, if it may be taken over
and none of that is a final declaration of the slot. -/
theorem mem_slots_of_offered (hm : m ∈ t.methods ++ b.methods ∨
      older.Above base (Layer.bridgeInterfaces base properties' ++ (dedupIds interfaces' ++ [.capability])) m)
    (hoffered : m.isOffered = true) (hopen : ∀ n, n ∈ t.methods ++ b.methods ∨
      older.Above base (Layer.bridgeInterfaces base properties' ++ (dedupIds interfaces' ++ [.capability])) n →
      n.slot = m.slot → n.modifiers.isFinal = false) :
    m.slot ∈ (w₀.types.harvest b.id (dedupIds interfaces' ++ [.capability])).map (·.slot) := by
  obtain ⟨-, hextra⟩ := List.forall_mem_append.1 (TypeTable.index_lt_of_asked h.stands.start h.declared)
  have hnumbered := h.stands.numbered_layers
  rw [h.stands.types] at hnumbered
  have hunclaimed : m.slot ∉ pairs.flatMap fun p => [p.getter.slot, p.setter.slot] := fun hclaimed => by
    obtain ⟨n, hn, hslot, hmodifiers⟩ := h.built.exists_own hclaimed
    have hfinal := hopen n (.inl (List.mem_append_right _ hn)) hslot
    rw [hmodifiers] at hfinal
    cases hfinal
  have hlisted := (h.built.mem_slots_iff_above hnumbered.2.2.2 hextra (s := m.slot)).2
  rw [← h.stands.types] at hlisted
  rcases hm with hm | hm
  · rcases List.mem_append.1 hm with hm | hm
    · exact h.mem_slots_of_own hm (Method.isOffered_iff.1 hoffered).1
    · rcases h.built.method_cases hm with ⟨-, hclaimed⟩ | ⟨op, hop, hslot, -⟩
      · exact absurd hclaimed hunclaimed
      · exact hlisted ⟨.inl (hslot ▸ List.mem_map_of_mem hop), fun n hn => hopen n (.inr hn), hunclaimed⟩
  · exact hlisted ⟨.inr ⟨m, hm, rfl, hoffered⟩, fun n hn => hopen n (.inr hn), hunclaimed⟩

/-- What a subtype has of its own and may be taken over has a slot that is declared above its base. -/
theorem declares_of_offered (hm : m ∈ t.methods ++ b.methods) (hoffered : m.isOffered = true) :
    ∃ n, older.Declares base.id (properties' ++ (dedupIds interfaces' ++ [.capability])) n ∧ n.slot = m.slot ∧
      n.isOffered = true := by
  obtain ⟨hproperties, hextra⟩ := List.forall_mem_append.1 (TypeTable.index_lt_of_asked h.stands.start h.declared)
  have hnumbered := h.stands.numbered_layers
  rw [h.stands.types] at hnumbered
  rcases List.mem_append.1 hm with hm | hm
  · refine h.built.declares_of_mem_slots hnumbered.2.2.2 h.stands.start h.stands.base hextra ?_
    rw [← h.stands.types]
    exact h.mem_slots_of_own hm (Method.isOffered_iff.1 hoffered).1
  · rcases h.built.method_cases hm with ⟨hfinal, -⟩ | ⟨op, hop, hslot, -⟩
    · rw [(Method.isOffered_iff.1 hoffered).1] at hfinal
      cases hfinal
    · have hharvest := (List.mem_filter.1 hop).1
      have hdeclared := hnumbered.2.2.2.2.2.2.mem_sources.1
        (List.mem_of_find?_eq_some (mem_intercept.1 hharvest).2)
      exact ⟨op, hdeclared.mono fun i hi => List.mem_append_left _ hi, hslot.symm,
        (Emitter.Bridge.offered_of_mem_harvest hharvest).1⟩

/-- A subtype fits as a base if its own base and its further interfaces do. -/
theorem fits (hfits : older.Fits base (properties' ++ (dedupIds interfaces' ++ [.capability])))
    (hextra : ∀ u, w'.types.Reaches extra u → ∀ m ∈ u.methods, m.isOffered = true →
      m.params.length < 65000 ∧ ¬Naming.accessorMark.toList <+: m.name.toList) : w'.types.Fits t extra where
  offered m hm hoffered := by
    rcases (h.stands.declares_iff fun i hi => h.declared i (List.mem_append_left _ hi)).1 hm with
      hm | hm | ⟨u, hu, hm⟩
    · obtain ⟨n, hn, hslot, hnOffered⟩ := h.declares_of_offered hm hoffered
      obtain ⟨hname, -, hparams⟩ := Slot.mk.inj hslot
      rw [← hname, ← hparams]
      exact hfits.offered n hn hnOffered
    · obtain ⟨new, -, hnumbered, -⟩ := h.stands.grown_base
      exact hfits.offered m (hnumbered.of_append.declares_of_above h.stands.start h.stands.base hm) hoffered
    · exact hextra u hu m hm hoffered
  ctors c hc := by
    obtain ⟨d, hd, hb⟩ := h.built.bridge
    obtain ⟨_, hd', ht⟩ := h.built.proxy
    obtain ⟨_, ctors, -, hctors, rfl⟩ := Layer.proxyDef_eq_ok_iff.1 hd'
    obtain ⟨new, -, hnumbered, -⟩ := h.stands.grown_base
    obtain ⟨c₁, hc₁, hparams₁⟩ := ht.params_of_ctor hc
    obtain ⟨c₂, hc₂, hparams₂, -⟩ := Layer.ctors_of_forwardingCtors hctors hc₁
    obtain ⟨c₃, hc₃, hparams₃⟩ := hb.params_of_ctor hc₂
    rw [hparams₁, hparams₂, hparams₃]
    exact (Layer.ctors_of_bridgeDef hd hnumbered.of_append h.stands.start h.stands.base hfits.ctors c₃ hc₃).1

/-- Without properties nothing is paired. -/
theorem pairs_eq_nil (hnone : properties = []) : pairs = [] := by
  subst hnone
  have hnil : properties' = [] := List.eq_nil_iff_forall_not_mem.2 fun i hi =>
    List.not_mem_nil ((h.properties i).1 hi)
  have hpaired := h.built.paired
  rw [hnil] at hpaired
  cases hpaired
  rfl

/-- A subtype is a class. -/
theorem isInterface_eq_false : t.isInterface = false := by
  obtain ⟨d, -, ht⟩ := h.built.proxy
  rw [HostType.isInterface, ht.kind]
  rfl

/-- A subtype can be extended. -/
theorem superclassFlaw?_eq_none : ClassDef.superclassFlaw? t = none := by
  obtain ⟨d, hd, ht⟩ := h.built.proxy
  obtain ⟨_, _, -, -, rfl⟩ := Layer.proxyDef_eq_ok_iff.1 hd
  exact ht.superclassFlaw?_eq_none rfl

/-- A request for a subtype of a subtype is answered if what it may take over fits. -/
theorem exists_createExtensionType {p : PlatformId} {requested added : List TypeId} (parent : Loader) (hs : w'.Sane)
    (hset : w'.SetsKnown) (hfits : older.Fits base (properties' ++ (dedupIds interfaces' ++ [.capability])))
    (hdeclared : ∀ i ∈ requested ++ added, i.index < w'.types.length)
    (hextra : ∀ u, w'.types.Reaches (added ++ (dedupIds requested ++ [.capability])) u → ∀ m ∈ u.methods,
      m.isOffered = true → m.params.length < 65000 ∧ ¬Naming.accessorMark.toList <+: m.name.toList)
    (hinterfaces : ∀ i ∈ requested ++ added, ∀ u, w'.types.lookup? i = some u → u.isInterface = true)
    {pairs' : List PropertyPair} (hpairs : w'.types.harvestProperties added = .ok pairs') :
    ∃ proxy w'', w'.createExtensionType p t.id requested added parent = (.ok proxy, w'') := by
  obtain ⟨-, hopen, hpublic⟩ := ClassDef.superclassFlaw?_eq_none_iff.1 h.superclassFlaw?_eq_none
  exact exists_createExtensionType_of_fits parent hs hset hdeclared h.stands.lookup (h.fits hfits hextra)
    hinterfaces hpairs (.inr ⟨hpublic, hopen⟩)

end

/-- A subtype of a subtype lists the slots that this lists, and those of what further interfaces declare and may be
taken over, unless there is a final declaration of the slot or the slot is that of an accessor of a property. -/
theorem mem_slots_again {w'' w₀' : World} {e' : Emitter} {older' : TypeTable} {b' t' : HostType}
    {requested added requested' added' : List TypeId} {pairs' : List PropertyPair}
    (h : w'.Answered e older w₀ base interfaces properties interfaces' properties' pairs b t)
    (h' : w''.Answered e' older' w₀' t requested added requested' added' pairs' b' t')
    (hgrown : w'.types <:+ w''.types) (hstart : TypeTable.initial <:+ w'.types)
    (hdeclared : ∀ i ∈ t.id :: (requested ++ added), i.index < w'.types.length) :
    s ∈ (w₀'.types.harvest b'.id (dedupIds requested' ++ [.capability])).map (·.slot) ↔
      (s ∈ (w₀.types.harvest b.id (dedupIds interfaces' ++ [.capability])).map (·.slot) ∨
        ∃ u, w'.types.Reaches (requested ++ added ++ [.capability]) u ∧ ∃ m ∈ u.methods, m.slot = s ∧
          m.isOffered = true) ∧
      (∀ m, w'.types.Declares t.id (requested ++ added ++ [.capability]) m → m.slot = s →
        m.modifiers.isFinal = false) ∧
      s ∉ pairs'.flatMap fun p => [p.getter.slot, p.setter.slot] := by
  have hdeclares (m : Method) : w'.types.Declares t.id (requested ++ added ++ [.capability]) m ↔ _ :=
    h.stands.declares_iff fun i hi => h.declared i (List.mem_append_left _ hi)
  rw [h'.mem_slots hgrown hstart hdeclared fun hinterface =>
    absurd (h.isInterface_eq_false.symm.trans hinterface) nofun]
  refine and_congr_left fun ⟨hopen, _⟩ => ⟨?_, ?_⟩
  · rintro ⟨m, hm, rfl, hoffered⟩
    rcases or_assoc.2 ((hdeclares m).1 hm) with hm | ⟨u, hu, hm⟩
    · exact .inl (h.mem_slots_of_offered hm hoffered fun n hn =>
        hopen n ((hdeclares n).2 (or_assoc.1 (.inl hn))))
    · exact .inr ⟨u, hu, m, hm, rfl, hoffered⟩
  · rintro (hs | ⟨u, hu, m, hm, hslot, hoffered⟩)
    · obtain ⟨m, hm, hslot, hoffered⟩ := h.exists_thunk hs
      exact ⟨m, (hdeclares m).2 (.inl (List.mem_append_left _ hm)), hslot, hoffered⟩
    · exact ⟨m, (hdeclares m).2 (.inr (.inr ⟨u, hu, hm⟩)), hslot, hoffered⟩

end World.Answered

end

end Interpose
