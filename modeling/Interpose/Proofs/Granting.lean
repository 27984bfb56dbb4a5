import Interpose.Proofs.Generation

/-!
# Which requests are granted

A request names a base, interfaces and interfaces with properties. It is granted exactly if the base can be
extended, what is asked for as interfaces are interfaces, and the properties can be paired; no other check of
a layer can fail.
-/

namespace Interpose

variable {e : Emitter} {w w' : World} {base b t : HostType} {interfaces properties : List TypeId}
  {pairs : List PropertyPair}

/-! ## Dispatchers -/

/-- Whether dispatchers are set only for types that are there. -/
def World.SetsKnown (w : World) : Prop := ∀ n ∈ w.installed, n.1.index < w.types.length

theorem World.setsKnown_initial (options : PlatformOptions) : (World.initial options).SetsKnown := nofun

theorem World.SetsKnown.dispatcherOf?_eq_none (h : w.SetsKnown) {id : TypeId}
    (hid : w.types.length ≤ id.index) : w.dispatcherOf? id = none := by
  rw [dispatcherOf?, Option.map_eq_none_iff, List.find?_eq_none]
  intro n hn hsame
  have hlt := h n hn
  rw [beq_iff_eq.1 hsame] at hlt
  omega

/-- Generating a subtype sets at most the dispatcher of the subtype. -/
theorem World.SetsKnown.generate (h : w.SetsKnown) (e : Emitter) (base : TypeId)
    (interfaces properties : List TypeId) (parent : Loader) (d : Option DispatcherId) :
    (World.generate e base interfaces properties parent d w).2.SetsKnown := by
  rw [World.generate]
  split
  · exact h
  rename_i t ht
  have hlayersKnown : (w.emitLayers e (subtypeLoaderName t) t (dedupIds interfaces) properties
      parent).2.SetsKnown := by
    obtain ⟨new, hadds, -⟩ := emitLayers_adds e (subtypeLoaderName t) t (dedupIds interfaces) properties
      parent w
    obtain ⟨arrays, issued, hrest⟩ := hadds.rest
    intro n hn
    rw [hrest] at hn
    rw [hadds.types, List.length_append]
    exact Nat.lt_add_left _ (h n hn)
  split
  · rename_i hlayers
    rw [hlayers] at hlayersKnown
    exact hlayersKnown
  rename_i proxy w₁ hlayers
  rw [hlayers] at hlayersKnown
  split
  · exact hlayersKnown
  rw [install]
  split
  · rename_i hinstall
    split at hinstall
    · cases hinstall
    · cases hinstall
      obtain ⟨b, arrays, w₀, loader, -, -, hproxy⟩ := emitLayers_eq_ok hlayers
      obtain ⟨t, ht, rfl, hw₁⟩ := Emitter.proxy_eq_ok hproxy
      have hlt : t.id.index < w₁.types.length := by
        rw [hw₁, ht.id]
        exact Nat.lt_succ_self _
      exact List.forall_mem_cons.2 ⟨hlt, hlayersKnown⟩
  · exact hlayersKnown

/-- A request keeps dispatchers set only for types that are there. -/
theorem World.SetsKnown.createExtensionType (h : w.SetsKnown) (p : PlatformId) (base : TypeId)
    (interfaces properties : List TypeId) (parent : Loader) :
    (w.createExtensionType p base interfaces properties parent).2.SetsKnown := by
  rw [World.createExtensionType]
  split
  · exact h
  · exact h
  rw [fromRegistry]
  have hgenerate := h.generate (w.emitter p) base interfaces properties parent (some (w.platform p).dispatcher)
  rcases (w.platform p).registry.getOrCreate_cases w.types.satisfies
    (CacheKey.of base interfaces properties parent) (World.generate (w.emitter p) base interfaces properties
      parent (some (w.platform p).dispatcher)) w with
    ⟨t, -, heq⟩ | ⟨t, w₁, n, hmade, heq⟩ | ⟨fault, w₁, hmade, heq⟩
  all_goals rw [heq]
  · exact h
  all_goals
    rw [hmade] at hgenerate
    exact hgenerate

/-! ## Requests -/

/-- A request for interfaces is answered if what it asks for can be generated. -/
theorem World.exists_createExtensionType {p : PlatformId} {parent : Loader} {id proxy : TypeId} {w₁ : World}
    (hinterfaces : ∀ i ∈ interfaces ++ properties, ∀ t, w.types.lookup? i = some t → t.isInterface = true)
    (hgenerate : World.generate (w.emitter p) id interfaces properties parent (some (w.platform p).dispatcher) w =
      (.ok proxy, w₁)) :
    ∃ proxy w', w.createExtensionType p id interfaces properties parent = (.ok proxy, w') := by
  obtain ⟨hrequested, hproperties⟩ := List.forall_mem_append.1 hinterfaces
  rw [createExtensionType, classAmong?_eq_none_iff.2 hrequested, classAmong?_eq_none_iff.2 hproperties]
  dsimp only
  rw [fromRegistry]
  rcases (w.platform p).registry.getOrCreate_cases w.types.satisfies
    (CacheKey.of id interfaces properties parent) (World.generate (w.emitter p) id interfaces properties
      parent (some (w.platform p).dispatcher)) w with
    ⟨t, -, heq⟩ | ⟨t, w₁, n, -, heq⟩ | ⟨fault, w₁, hmade, -⟩
  · rw [heq]
    exact ⟨t, _, rfl⟩
  · rw [heq]
    exact ⟨t, _, rfl⟩
  · cases hmade.symm.trans hgenerate

/-- In a sane world, a request is answered if what it may take over fits, the base can be extended, what is asked
for as interfaces are interfaces, and the properties can be paired. -/
theorem World.exists_createExtensionType_of_fits {p : PlatformId} (parent : Loader) (hs : w.Sane)
    (hset : w.SetsKnown) (hdeclared : ∀ i ∈ interfaces ++ properties, i.index < w.types.length)
    (hbase : w.types.lookup? base.id = some base)
    (hfits : w.types.Fits base (properties ++ (dedupIds interfaces ++ [.capability])))
    (hinterfaces : ∀ i ∈ interfaces ++ properties, ∀ t, w.types.lookup? i = some t → t.isInterface = true)
    (hpairs : w.types.harvestProperties properties = .ok pairs)
    (hopen : base.isInterface = true ∨ base.modifiers.isPublic = true ∧ base.isFinal = false) :
    ∃ proxy w', w.createExtensionType p base.id interfaces properties parent = (.ok proxy, w') := by
  obtain ⟨w₁, hgenerate⟩ := exists_generate_of_fits (w.emitter p) parent (w.platform p).dispatcher
    hs.numbered hs.start hbase hdeclared hfits hinterfaces hpairs hopen
    (hset.dispatcherOf?_eq_none (Nat.le_succ _))
  exact exists_createExtensionType hinterfaces hgenerate

/-- What is asked for fits if it is modest. -/
theorem TypeTable.Modest.fits_asked {types : TypeTable} (h : types.Modest base (interfaces ++ properties))
    (hnumbered : types.Numbered) (hstart : TypeTable.initial <:+ types) :
    types.Fits base (properties ++ (dedupIds interfaces ++ [.capability])) := by
  refine ((h.capability hnumbered hstart).of_declares fun m hm => hm.mono fun i => ?_).fits
  simp only [List.mem_append, mem_dedupIds]
  tauto

/-! ## A class with a name of its own -/

/-- A name that cannot be overridden. -/
def badgeName : Method :=
  ⟨"getName", [], .reference stringName, .public ||| .final, "Badge", ⟨2⟩,
    .native fun _ _ => .done (.str "native")⟩

/-- Another operation that cannot be overridden. -/
def badgeSeal : Method :=
  ⟨"seal", [], .void, .public ||| .final, "Badge", ⟨2⟩, .native fun _ _ => .done .void⟩

/-- An operation that has no body. -/
def badgeWear : Method := ⟨"wear", [.object], .primitive .int, .public ||| .abstract, "Badge", ⟨2⟩, .abstract⟩

/-- A class that has these and a constructor. -/
def badge : HostType :=
  { gauge [badgeName, badgeSeal, badgeWear] with
    name := "Badge", constructors := [⟨[], .public, "Badge", .inherited none⟩] }

/-- An interface with a property of the same name. -/
def named : HostType :=
  ⟨⟨3⟩, "Named", .iface, .public ||| .abstract, none, [],
    [⟨"getName", [], .reference stringName, .public ||| .abstract, "Named", ⟨3⟩, .abstract⟩,
      ⟨"setName", [.reference stringName], .void, .public ||| .abstract, "Named", ⟨3⟩, .abstract⟩],
    [], [], .system, none⟩

/-- The world with the class and the interface. -/
def badgeWorld : World :=
  { World.initial {} with types := named :: badge :: TypeTable.initial }

/-- A world with nothing but types is sane if they are numbered. -/
theorem World.sane_of_types (options : PlatformOptions) {types : TypeTable} (hnumbered : types.Numbered)
    (hstart : TypeTable.initial <:+ types) : ({ World.initial options with types := types } : World).Sane where
  numbered := hnumbered
  start := hstart
  scripts := nofun
  routing := by
    rintro ⟨_ | k⟩ hp
    · rfl
    · exact absurd hp (Nat.not_lt.2 (Nat.le_add_left 1 k))
  accessors := by
    rintro ⟨_ | k⟩
    · exact AccessorCache.sound_nil 0
    · exact AccessorCache.sound_nil 0
  registry := by
    rintro ⟨_ | k⟩ key id hentry
    · cases hentry
    · cases hentry

theorem sane_badgeWorld : badgeWorld.Sane := by
  refine World.sane_of_types _ ⟨rfl, nofun, nofun, ?_⟩ ⟨[named, badge], rfl⟩
  exact numbered_gauge [badgeName, badgeSeal, badgeWear]

/-- Types of which none declares an operation with too many parameters or a name as accessors have are modest. -/
theorem TypeTable.modest_of_forall {types : TypeTable} {extra : List TypeId}
    (hmethods : ∀ t ∈ types, ∀ m ∈ t.methods,
      m.params.length < 65000 ∧ ¬Naming.accessorMark.toList <+: m.name.toList)
    (hctors : ∀ c ∈ base.constructors, c.params.length < 65000) : types.Modest base extra := by
  have hall (m : Method) (hm : types.Declares base.id extra m) :
      m.params.length < 65000 ∧ ¬Naming.accessorMark.toList <+: m.name.toList := by
    obtain ⟨t, ht, hm⟩ := hm
    exact hmethods t ht.mem m hm
  exact ⟨fun m hm => (hall m hm).1, fun m hm => (hall m hm).2, hctors⟩

/-- What is found to succeed has a result. -/
theorem exists_eq_ok_of_isOk {ε α : Type} {x : Except ε α} (h : x.isOk = true) : ∃ a, x = .ok a := by
  cases x with
  | error => cases h
  | ok a => exact ⟨a, rfl⟩

theorem exists_pairs_named : ∃ pairs, badgeWorld.types.harvestProperties [named.id] = .ok pairs :=
  exists_eq_ok_of_isOk (by decide +kernel)

theorem modest_badge (extra : List TypeId) : badgeWorld.types.Modest badge extra :=
  TypeTable.modest_of_forall (by decide) (by decide)

/-- The class can be extended with the property. -/
theorem exists_createExtensionType_badge :
    ∃ proxy w', badgeWorld.createExtensionType .first badge.id [] [named.id] .system = (.ok proxy, w') := by
  obtain ⟨pairs, hpairs⟩ := exists_pairs_named
  refine World.exists_createExtensionType_of_fits .system sane_badgeWorld nofun (by decide) rfl
    (modest_badge _).fits (fun i hi t ht => ?_) hpairs (.inr ⟨by decide, by decide⟩)
  obtain rfl := List.mem_singleton.1 hi
  cases ht
  rfl

/-- In a sane world, a request for modest types is answered exactly if what is asked for as interfaces are
interfaces, the properties can be paired, and the base is an interface or a public class that is not final. In the
layers that answer it all code is verified, and no two methods of a layer have one slot. -/
theorem World.createExtensionType_ok_iff {p : PlatformId} {parent : Loader} (hs : w.Sane) (hset : w.SetsKnown)
    (hp : p.index < w.platforms.size)
    (hdeclared : ∀ i ∈ base.id :: (interfaces ++ properties), i.index < w.types.length)
    (hbase : w.types.lookup? base.id = some base)
    (hmodest : w.types.Modest base (interfaces ++ properties)) :
    ((∃ proxy w', w.createExtensionType p base.id interfaces properties parent = (.ok proxy, w')) ↔
      (∀ i ∈ interfaces ++ properties, ∀ t, w.types.lookup? i = some t → t.isInterface = true) ∧
      (∃ pairs, w.types.harvestProperties properties = .ok pairs) ∧
      (base.isInterface = true ∨ base.modifiers.isPublic = true ∧ base.isFinal = false)) ∧
    ∀ proxy w', w.createExtensionType p base.id interfaces properties parent = (.ok proxy, w') →
      ∃ e older w₀ interfaces' properties' pairs b t d d', proxy = t.id ∧
        w'.Answered e older w₀ base interfaces properties interfaces' properties' pairs b t ∧
        Layer.bridgeDef older base (older.harvestAbstract base.id properties') pairs properties' = .ok d ∧
        e.Defines older d b ∧
        Layer.proxyDef (b :: older) b base (TypeTable.harvest (b :: older) b.id
          (dedupIds interfaces' ++ [.capability])) (dedupIds interfaces') = .ok d' ∧
        e.Defines (b :: older) d' t ∧
        (∀ c ∈ d.codes ++ d'.codes, ∃ deepest, c.verify = .ok deepest) ∧
        (d.methods.map (·.slot)).Nodup ∧ (d'.methods.map (·.slot)).Nodup := by
  have hstart := hs.start
  have hnumbered := hs.numbered
  obtain ⟨-, hideclared⟩ := List.forall_mem_cons.1 hdeclared
  have hcapable := hmodest.capability hnumbered hstart
  have hanswered (proxy : TypeId) (w' : World)
      (h : w.createExtensionType p base.id interfaces properties parent = (.ok proxy, w')) :
      w.types <:+ w'.types ∧ ∃ e older w₀ interfaces' properties' pairs b t, proxy = t.id ∧
        w'.Answered e older w₀ base interfaces properties interfaces' properties' pairs b t := by
    obtain ⟨hlater, -⟩ := later_createExtensionType (w := w) p parent fun _ => hdeclared
    rw [h] at hlater
    exact ⟨hlater.types, answered_of_createExtensionType hs hp hdeclared hbase h⟩
  refine ⟨⟨fun ⟨proxy, w', h⟩ => ?_, fun ⟨hinterfaces, ⟨pairs, hpairs⟩, hopen⟩ => ?_⟩, fun proxy w' h => ?_⟩
  · obtain ⟨hgrown, e, older, w₀, interfaces', properties', pairs, b, t, -, ha⟩ := hanswered proxy w' h
    refine ⟨interfaces_of_createExtensionType h, ?_, ?_⟩
    · obtain ⟨pairs', hpairs', -⟩ := ha.harvestProperties hgrown fun i hi =>
        hideclared i (List.mem_append_right _ hi)
      exact ⟨pairs', hpairs'⟩
    · obtain ⟨d, hd, hdefines⟩ := ha.built.bridge
      obtain ⟨new, -, hnumbered, -⟩ := ha.stands.grown_base
      exact ((Layer.validate_bridgeDef_iff hd (TypeTable.pairs_of_harvestProperties ha.built.paired)
        ((sorted_intercept _).sublist List.filter_sublist) hnumbered.of_append ha.stands.start
        ha.stands.base).1 hdefines.valid).1
  · exact exists_createExtensionType_of_fits parent hs hset hideclared hbase (hmodest.fits_asked hnumbered hstart)
      hinterfaces hpairs hopen
  · obtain ⟨hgrown, e, older, w₀, interfaces', properties', pairs, b, t, hid, ha⟩ := hanswered proxy w' h
    obtain ⟨d, hd, hdefines⟩ := ha.built.bridge
    obtain ⟨d', hd', hdefines'⟩ := ha.built.proxy
    refine ⟨e, older, w₀, interfaces', properties', pairs, b, t, d, d', hid, ha, hd, hdefines, hd', hdefines',
      ?_, ClassDef.nodup_of_validate hdefines.valid, ClassDef.nodup_of_validate hdefines'.valid⟩
    obtain ⟨new, hall, hnumbered', -⟩ := ha.stands.grown_base
    have holder := hnumbered'.of_append
    have hmodest' : older.Modest base (properties' ++ (dedupIds interfaces' ++ [.capability])) :=
      hcapable.of_declares fun m => (ha.declares_iff hgrown hstart hdeclared).1
    have hextra := TypeTable.index_lt_of_asked ha.stands.start ha.declared
    obtain ⟨d'', hd'', -, hleads'⟩ := ha.built.exists_proxyDef holder ha.stands.start ha.stands.base hextra
      hmodest'.fits (dedupIds interfaces')
    obtain rfl := Except.ok.inj (hd'.symm.trans hd'')
    have hleads := Layer.leads_bridgeDef hd holder ha.stands.start ha.stands.base hmodest.ctors
    intro c hc
    rcases List.mem_append.1 hc with hc | hc
    · exact (hleads c hc).exists_verify
    · exact (hleads' c hc).exists_verify

/-- The class can be extended with the property, but not with itself as an interface. -/
theorem World.createExtensionType_ok_iff_badge :
    (∃ proxy w', badgeWorld.createExtensionType .first badge.id [] [named.id] .system = (.ok proxy, w')) ∧
    ¬∃ proxy w', badgeWorld.createExtensionType .first badge.id [badge.id] [] .system = (.ok proxy, w') := by
  have hiff {interfaces properties : List TypeId}
      (hdeclared : ∀ i ∈ badge.id :: (interfaces ++ properties), i.index < badgeWorld.types.length) :
      (∃ proxy w', badgeWorld.createExtensionType .first badge.id interfaces properties .system =
        (.ok proxy, w')) ↔ _ :=
    (createExtensionType_ok_iff sane_badgeWorld nofun (by decide) hdeclared rfl (modest_badge _)).1
  constructor
  · refine (hiff (by decide)).2 ⟨fun i hi t ht => ?_, exists_pairs_named, .inr ⟨by decide, by decide⟩⟩
    obtain rfl := List.mem_singleton.1 hi
    cases ht
    rfl
  · intro h
    have hclass := ((hiff (by decide)).1 h).1 badge.id (by decide) badge rfl
    exact absurd hclass (by decide)

end Interpose
