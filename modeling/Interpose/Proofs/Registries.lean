import Interpose.Proofs.Extensions
import Interpose.Proofs.Growth

/-!
# Registries

The key of a request is told by the base, the two sets of interfaces and the loader. What is generated for a
request provides what its key asks for, and goes on doing so, hence a registry generates the subtype of a key
once: it tells keys apart by their subtypes and counts them, and a request that fails changes neither.
-/

namespace Interpose

variable {e : Emitter} {w w' : World} {new types : TypeTable} {interfaces properties : List TypeId}
  {key key' : CacheKey} {id : TypeId} {p : PlatformId} {parent : Loader}

/-! ## Keys -/

theorem pairwise_insertId {ids : List TypeId} (h : ids.Pairwise fun a b => a.index < b.index) (id : TypeId) :
    (insertId id ids).Pairwise fun a b => a.index < b.index := by
  induction ids with
  | nil => exact List.pairwise_singleton _ _
  | cons other rest ih =>
      obtain ⟨hother, hrest⟩ := List.pairwise_cons.1 h
      rw [insertId]
      split
      · rename_i hlt
        exact List.pairwise_cons.2
          ⟨List.forall_mem_cons.2 ⟨hlt, fun i hi => Nat.lt_trans hlt (hother i hi)⟩, h⟩
      · rename_i hle
        split
        · exact h
        · rename_i hne
          have hlt : other.index < id.index :=
            Nat.lt_of_le_of_ne (Nat.le_of_not_lt hle) fun heq => hne (congrArg TypeId.mk heq.symm)
          refine List.pairwise_cons.2 ⟨fun i hi => ?_, ih hrest⟩
          rcases mem_insertId.1 hi with rfl | hi
          · exact hlt
          · exact hother i hi

/-- Sorted identities increase. -/
theorem pairwise_sortedIds (ids : List TypeId) : (sortedIds ids).Pairwise fun a b => a.index < b.index := by
  induction ids with
  | nil => exact .nil
  | cons id ids ih => exact pairwise_insertId ih id

/-- Identities are sorted alike exactly if they are the same up to order and repetitions. -/
theorem sortedIds_eq_iff {ids ids' : List TypeId} :
    sortedIds ids = sortedIds ids' ↔ ∀ i, i ∈ ids ↔ i ∈ ids' := by
  constructor
  · intro h i
    rw [← mem_sortedIds, h, mem_sortedIds]
  · intro h
    have hirrefl : Std.Irrefl fun a b : TypeId => a.index < b.index := ⟨fun a => Nat.lt_irrefl _⟩
    have hantisymm : Std.Antisymm fun a b : TypeId => a.index < b.index :=
      ⟨fun a b hab hba => absurd hba (Nat.lt_asymm hab)⟩
    refine (pairwise_sortedIds ids).eq_of_mem_iff (pairwise_sortedIds ids') fun i => ?_
    rw [mem_sortedIds, mem_sortedIds, h]

/-- Two requests have one key exactly if they name the same base, the same sets of interfaces and the same
loader. -/
theorem CacheKey.of_eq_iff {base base' : TypeId} {interfaces' properties' : List TypeId} {loader loader' : Loader} :
    CacheKey.of base interfaces properties loader = CacheKey.of base' interfaces' properties' loader' ↔
      base = base' ∧ (∀ i, i ∈ interfaces ↔ i ∈ interfaces') ∧ (∀ i, i ∈ properties ↔ i ∈ properties') ∧
        loader.id = loader'.id := by
  rw [CacheKey.of, CacheKey.of, CacheKey.mk.injEq, sortedIds_eq_iff, sortedIds_eq_iff]

/-! ## What a key asks for -/

/-- A proxy is defined under the loader that it is to have, and keeps what was asked for. -/
theorem Emitter.loader_of_proxy {bridge base : HostType} {operations : List Method} {requested : List TypeId}
    {loader : Loader} (h : e.proxy w bridge base operations requested loader = .ok (id, w')) :
    ∃ t, w'.types.lookup? id = some t ∧ t.loader = loader ∧
      t.generated.map (·.requested) = some requested := by
  obtain ⟨d, hd, hdefine⟩ := bind_eq_ok.1 h
  obtain ⟨_, _, -, -, rfl⟩ := Layer.proxyDef_eq_ok_iff.1 hd
  obtain ⟨-, -, -, ctors, methods, -, -, hw⟩ := define_eq_ok hdefine
  exact ⟨_, (congrArg (TypeTable.lookup? · id) (congrArg World.types hw)).trans
    (List.find?_cons_of_pos (beq_self_eq_true id)), rfl, rfl⟩

/-- The loader of what is emitted is right below the one that is given. -/
theorem World.loader_of_emitLayers {label : String} {base : HostType}
    (h : w.emitLayers e label base interfaces properties parent = (.ok id, w')) :
    ∃ t, w'.types.lookup? id = some t ∧ t.loader.parent = some parent ∧
      t.generated.map (·.requested) = some interfaces := by
  rw [emitLayers] at h
  split at h
  · cases h
  dsimp only at h
  split at h
  · cases h
  rename_i bridge w₀ hbridge
  obtain ⟨d, -, hdefine⟩ := bind_eq_ok.1 hbridge
  obtain ⟨b, _, -, rfl, rfl⟩ := Emitter.defines_of_define hdefine
  split at h
  · rename_i hnone
    cases hnone.symm.trans (List.find?_cons_of_pos (beq_self_eq_true b.id))
  split at h
  · cases h
  rename_i proxy w₁ hproxy
  cases h
  obtain ⟨t, ht, hloader, hrequested⟩ := Emitter.loader_of_proxy hproxy
  exact ⟨t, ht, by rw [hloader]; rfl, hrequested⟩

/-- What is generated for a request provides what its key asks for. -/
theorem World.satisfies_of_generate {base : TypeId} {d : Option DispatcherId}
    (h : World.generate e base interfaces properties parent d w = (.ok id, w')) :
    w'.types.satisfies id (CacheKey.of base interfaces properties parent) = true := by
  rw [generate] at h
  split at h
  · cases h
  split at h
  · cases h
  rename_i proxy w₁ hlayers
  have hsame : id = proxy ∧ w'.types = w₁.types := by
    split at h
    · cases h
      exact ⟨rfl, rfl⟩
    · rw [install] at h
      split at h
      · rename_i hinstall
        split at hinstall
        · cases hinstall
        · cases hinstall
          cases h
          exact ⟨rfl, rfl⟩
      · cases h
  obtain ⟨rfl, hw'⟩ := hsame
  obtain ⟨t, ht, hloader, hrequested⟩ := loader_of_emitLayers hlayers
  obtain ⟨g, hg, hasked⟩ := Option.map_eq_some_iff.1 hrequested
  have hsorted : sortedIds (dedupIds interfaces) = sortedIds interfaces :=
    sortedIds_eq_iff.2 fun i => mem_dedupIds
  rw [hw', TypeTable.satisfies, ht]
  simp only [hg, hloader, CacheKey.of, hasked, hsorted, beq_self_eq_true, Bool.and_self]

/-- What provides what a key asks for goes on doing so. -/
theorem TypeTable.Numbered.satisfies_append (h : Numbered (new ++ types)) (hid : id.index < types.length) :
    satisfies (new ++ types) id key = types.satisfies id key := by
  rw [satisfies, satisfies, h.lookup?_append hid]

/-! ## What a registry knows -/

namespace Registry

variable {r : Registry} {subtype : Option TypeId}

/-- Dropping a key changes no other one. -/
theorem get?_drop_of_ne (r : Registry) (h : key' ≠ key) : (r.drop key).get? key' = r.get? key' := by
  have hfilter : (r.entries.filter (·.1 != key)).find? (·.1 == key') = r.entries.find? (·.1 == key') := by
    rw [List.find?_filter]
    congr 1
    funext n
    by_cases hn : n.1 = key'
    · simp [hn, h]
    · simp [hn]
  rw [get?, get?, drop, hfilter]

/-- Setting a key changes no other one. -/
theorem get?_put : (r.put key subtype).get? key' = if key' = key then subtype else r.get? key' := by
  by_cases h : key' = key
  · subst h
    simp [get?, put]
  · have hne : (key == key') = false := beq_false_of_ne fun heq => h heq.symm
    rw [if_neg h, ← get?_drop_of_ne r h, get?, get?, put, List.find?_cons, hne, drop]

/-- Whether each subtype of a registry is there, provides what its key asks for and is the subtype of no other
key, and what its key names as interfaces are interfaces. -/
structure Sound (types : TypeTable) (r : Registry) : Prop where
  provided : ∀ key id, r.get? key = some id → id.index < types.length ∧ types.satisfies id key = true
  interfaces : ∀ key id, r.get? key = some id → ∀ i ∈ key.interfaces ++ key.properties,
    i.index < types.length ∧ ∀ t, types.lookup? i = some t → t.isInterface = true
  separate : ∀ key key' id, r.get? key = some id → r.get? key' = some id → key = key'

namespace Sound

/-- An empty registry is sound. -/
theorem nil (types : TypeTable) : Registry.Sound types {} := ⟨nofun, nofun, nofun⟩

/-- A registry stays sound while types are added and what it answers stays the same. -/
theorem grown {r' : Registry} (h : r.Sound types) (hnumbered : TypeTable.Numbered (new ++ types))
    (hsame : ∀ key, r'.get? key = r.get? key) : r'.Sound (new ++ types) where
  provided key id hget := by
    obtain ⟨hid, hsatisfies⟩ := h.provided key id (hsame key ▸ hget)
    exact ⟨Nat.lt_of_lt_of_le hid (List.suffix_append new types).length_le,
      (hnumbered.satisfies_append hid).trans hsatisfies⟩
  interfaces key id hget i hi := by
    obtain ⟨hlt, hinterface⟩ := h.interfaces key id (hsame key ▸ hget) i hi
    exact ⟨Nat.lt_of_lt_of_le hlt (List.suffix_append new types).length_le,
      fun t ht => hinterface t (hnumbered.lookup?_append hlt ▸ ht)⟩
  separate key key' id hget hget' := h.separate key key' id (hsame key ▸ hget) (hsame key' ▸ hget')

/-- A registry stays sound when a new type is added to it that provides what its key asks for. -/
theorem generated (h : r.Sound types) (hnumbered : TypeTable.Numbered (new ++ types))
    (hnew : types.length ≤ id.index) (hid : id.index < (new ++ types).length)
    (hsatisfies : TypeTable.satisfies (new ++ types) id key = true)
    (hinterfaces : ∀ i ∈ key.interfaces ++ key.properties,
      i.index < types.length ∧ ∀ t, types.lookup? i = some t → t.isInterface = true) :
    (r.generated key id).Sound (new ++ types) := by
  have hgrown : r.Sound (new ++ types) := h.grown hnumbered fun _ => rfl
  have hget (k : CacheKey) : (r.generated key id).get? k = if k = key then some id else r.get? k := get?_put
  -- no key had the new type before
  have hfresh (k : CacheKey) (hk : r.get? k = some id) : False :=
    absurd (h.provided k id hk).1 (Nat.not_lt.2 hnew)
  refine ⟨fun k i hk => ?_, fun k i hk => ?_, fun k k' i hk hk' => ?_⟩
  · rw [hget] at hk
    split at hk
    · rename_i heq
      cases hk
      exact heq ▸ ⟨hid, hsatisfies⟩
    · exact hgrown.provided k i hk
  · rw [hget] at hk
    split at hk
    · rename_i heq
      intro j hj
      obtain ⟨hlt, hinterface⟩ := hinterfaces j (heq ▸ hj)
      exact ⟨Nat.lt_of_lt_of_le hlt (List.suffix_append new types).length_le,
        fun t ht => hinterface t (hnumbered.lookup?_append hlt ▸ ht)⟩
    · exact hgrown.interfaces k i hk
  · rw [hget] at hk hk'
    split at hk <;> split at hk'
    · rename_i heq heq'
      rw [heq, heq']
    · cases hk
      exact (hfresh k' hk').elim
    · cases hk'
      exact (hfresh k hk).elim
    · exact h.separate k k' i hk hk'

end Sound

end Registry

/-! ## What a request does -/

namespace World

variable {base : TypeId}

/-- What is generated is the second of the types that are added. -/
theorem index_of_generate {d : Option DispatcherId}
    (h : World.generate e base interfaces properties parent d w = (.ok id, w')) :
    id = ⟨w.types.length + 1⟩ ∧ w'.types.length = w.types.length + 2 := by
  obtain ⟨t, hlookup⟩ := exists_lookup?_of_generate h
  obtain rfl : t.id = base := (TypeTable.mem_of_lookup? hlookup).2
  obtain ⟨b, _, w₀, s, hlayers, rfl, -, hw'⟩ := generate_eq_ok hlookup h
  rw [hw', hlayers.proxy.id, hlayers.types]
  exact ⟨rfl, rfl⟩

/-- A request that fails leaves the subtypes of the registry as they are; a request that succeeds is answered with
the subtype that the registry has for its key, or else with a new one, which the registry then has. -/
theorem createExtensionType_cases {result : Except PlatformError TypeId} (hp : p.index < w.platforms.size)
    (hsound : (w.platform p).registry.Sound w.types)
    (h : w.createExtensionType p base interfaces properties parent = (result, w')) :
    (∃ fault, result = .error fault ∧
      (w'.platform p).registry.generations = (w.platform p).registry.generations ∧
      ∀ key, (w'.platform p).registry.get? key = (w.platform p).registry.get? key) ∨
    ∃ id, result = .ok id ∧
      ((w.platform p).registry.get? (CacheKey.of base interfaces properties parent) = some id ∧
          (w'.platform p).registry = (w.platform p).registry ∨
        (w.platform p).registry.get? (CacheKey.of base interfaces properties parent) = none ∧
          (w'.platform p).registry =
            (w.platform p).registry.generated (CacheKey.of base interfaces properties parent) id ∧
          ∃ w₁, World.generate (w.emitter p) base interfaces properties parent (some (w.platform p).dispatcher) w =
            (.ok id, w₁) ∧ w' = w₁.remembering p
              ((w.platform p).registry.generated (CacheKey.of base interfaces properties parent) id)) := by
  rw [createExtensionType] at h
  split at h
  · cases h
    exact .inl ⟨_, rfl, rfl, fun _ => rfl⟩
  · cases h
    exact .inl ⟨_, rfl, rfl, fun _ => rfl⟩
  have hsize := size_generate (w.emitter p) base interfaces properties parent (some (w.platform p).dispatcher) w
  have hput {w₁ : World} (hw₁ : w₁.platforms.size = w.platforms.size) (r : Registry) :
      ((w₁.remembering p r).platform p).registry = r := by
    rw [remembering, platform_modify, if_pos ⟨rfl, hw₁ ▸ hp⟩]
  rw [fromRegistry, Registry.getOrCreate_eq] at h
  split at h
  rename_i answer r w₁ hanswer
  cases h
  cases hget : (w.platform p).registry.get? (CacheKey.of base interfaces properties parent) with
  | some id =>
      simp only [hget, (hsound.provided _ id hget).2, if_true] at hanswer
      cases hanswer
      exact .inr ⟨id, rfl, .inl ⟨rfl, hput rfl _⟩⟩
  | none =>
      simp only [hget] at hanswer
      rw [Registry.generate] at hanswer
      split at hanswer
      · rename_i id w₂ hgenerate
        cases hanswer
        rw [hgenerate] at hsize
        exact .inr ⟨id, rfl, .inr ⟨rfl, hput hsize _, w₁, hgenerate, rfl⟩⟩
      · rename_i fault w₂ hgenerate
        cases hanswer
        rw [hgenerate] at hsize
        have hregistry := hput hsize ((w.platform p).registry.put
          (CacheKey.of base interfaces properties parent) none)
        refine .inl ⟨fault, rfl, (congrArg Registry.generations hregistry).trans rfl, fun key => ?_⟩
        refine (congrArg (Registry.get? · key) hregistry).trans ?_
        rw [Registry.get?_put]
        split
        · rename_i heq
          rw [heq, hget]
        · rfl

/-- A request whose key the registry has a subtype for is answered with it. -/
theorem createExtensionType_of_get? (hsound : (w.platform p).registry.Sound w.types)
    (hget : (w.platform p).registry.get? (CacheKey.of base interfaces properties parent) = some id) :
    (w.createExtensionType p base interfaces properties parent).1 = .ok id := by
  have hinterfaces := hsound.interfaces _ id hget
  have hrequested : w.classAmong? interfaces = none := classAmong?_eq_none_iff.2 fun i hi =>
    (hinterfaces i (List.mem_append_left _ (mem_sortedIds.2 hi))).2
  have hproperties : w.classAmong? properties = none := classAmong?_eq_none_iff.2 fun i hi =>
    (hinterfaces i (List.mem_append_right _ (mem_sortedIds.2 hi))).2
  rw [createExtensionType, hrequested, hproperties]
  dsimp only
  rw [fromRegistry, Registry.getOrCreate_eq]
  simp only [hget, (hsound.provided _ id hget).2, if_true]

/-- A registry is kept sound by requests. -/
theorem sound_createExtensionType (hs : w.Sane) (hp : p.index < w.platforms.size)
    (hsound : (w.platform p).registry.Sound w.types)
    (hdeclared : ∀ i ∈ base :: (interfaces ++ properties), i.index < w.types.length) :
    ((w.createExtensionType p base interfaces properties parent).2.platform p).registry.Sound
      (w.createExtensionType p base interfaces properties parent).2.types := by
  obtain ⟨hlater, -⟩ := later_createExtensionType (w := w) p parent fun _ => hdeclared
  rcases hanswer : w.createExtensionType p base interfaces properties parent with ⟨result, w'⟩
  rw [hanswer] at hlater
  obtain ⟨new, hnew⟩ := hlater.types
  have hnumbered : TypeTable.Numbered (new ++ w.types) := hnew ▸ (hlater.sane hs).numbered
  dsimp only
  rcases createExtensionType_cases hp hsound hanswer with
    ⟨fault, -, -, hsame⟩ | ⟨id, rfl, ⟨-, hsame⟩ | ⟨-, hgenerated, w₁, hgenerate, hw'⟩⟩
  · rw [← hnew]
    exact hsound.grown hnumbered hsame
  · rw [← hnew]
    exact hsound.grown hnumbered fun key => by rw [hsame]
  · obtain ⟨hid, hlength⟩ := index_of_generate hgenerate
    have hinterfaces := interfaces_of_createExtensionType hanswer
    have hsatisfies := satisfies_of_generate hgenerate
    have htypes : w'.types = w₁.types := (congrArg World.types hw').trans rfl
    rw [← htypes, ← hnew] at hsatisfies hlength
    rw [hgenerated, ← hnew]
    refine hsound.generated hnumbered ?_ ?_ hsatisfies fun i hi => ?_
    · rw [hid]
      exact Nat.le_succ _
    · rw [hid, hlength]
      exact Nat.lt_succ_self _
    · have hi : i ∈ interfaces ++ properties := by
        rcases List.mem_append.1 hi with hi | hi
        · exact List.mem_append_left _ (mem_sortedIds.1 hi)
        · exact List.mem_append_right _ (mem_sortedIds.1 hi)
      exact ⟨hdeclared i (List.mem_cons_of_mem _ hi), hinterfaces i hi⟩

/-- A request that is answered in a world is answered in any other whose types grew from a table with all that the
request names, and whose platform has the same options and the same subtypes. -/
theorem exists_answer_of_older {w₁ w₂ w₃ : World} {older : TypeTable} (hs₁ : w₁.Sane) (hs₂ : w₂.Sane)
    (hset : w₂.SetsKnown) (hp : p.index < w₁.platforms.size)
    (hsound₁ : (w₁.platform p).registry.Sound w₁.types) (hsound₂ : (w₂.platform p).registry.Sound w₂.types)
    (hget : ∀ key, (w₂.platform p).registry.get? key = (w₁.platform p).registry.get? key)
    (hoptions : (w₂.platform p).options = (w₁.platform p).options)
    (holder₁ : older <:+ w₁.types) (holder₂ : older <:+ w₂.types) (hstart : TypeTable.initial <:+ older)
    (hdeclared : ∀ i ∈ base :: (interfaces ++ properties), i.index < older.length)
    (h : w₁.createExtensionType p base interfaces properties parent = (.ok id, w₃)) :
    ∃ id', (w₂.createExtensionType p base interfaces properties parent).1 = .ok id' := by
  have hlookup {w : World} (hs : w.Sane) (holder : older <:+ w.types) (i : TypeId) (hi : i.index < older.length) :
      w.types.lookup? i = older.lookup? i := by
    obtain ⟨new, hnew⟩ := holder
    have hnumbered : TypeTable.Numbered (new ++ older) := hnew ▸ hs.numbered
    rw [← hnew, hnumbered.lookup?_append hi]
  obtain ⟨hid, hasked⟩ := List.forall_mem_cons.1 hdeclared
  rcases createExtensionType_cases hp hsound₁ h with
    ⟨fault, hfault, -⟩ | ⟨k, -, ⟨hknown, -⟩ | ⟨-, -, w₄, hgenerate, -⟩⟩
  · cases hfault
  · exact ⟨k, createExtensionType_of_get? hsound₂ ((hget _).trans hknown)⟩
  · obtain ⟨t, ht⟩ := exists_lookup?_of_generate hgenerate
    obtain rfl : t.id = base := (TypeTable.mem_of_lookup? ht).2
    rw [hlookup hs₁ holder₁ _ hid] at ht
    obtain ⟨proxy, w₅, hgenerate'⟩ := exists_generate_of_older hs₁.numbered hs₂.numbered hset holder₁ holder₂ hstart
      ht hdeclared hgenerate
    obtain ⟨w₆, hgenerate'⟩ := exists_generate_of_dispatcher hgenerate' (some (w₂.platform p).dispatcher)
    have hemitter : w₂.emitter p = w₁.emitter p := by rw [emitter, emitter, hoptions]
    have hinterfaces := interfaces_of_createExtensionType h
    obtain ⟨id', w₇, hanswer⟩ := exists_createExtensionType (fun i hi u hu => hinterfaces i hi u
      ((hlookup hs₁ holder₁ i (hasked i hi)).trans ((hlookup hs₂ holder₂ i (hasked i hi)).symm.trans hu)))
      (hemitter ▸ hgenerate')
    exact ⟨id', by rw [hanswer]⟩

end World

end Interpose
