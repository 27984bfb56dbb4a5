import Interpose.Platform.Construction
import Interpose.Proofs.Later

/-!
# Subtypes on request

A request for a subtype leaves a later world, whether it is answered or not: it adds at most the two
layers of a subtype. In a sane world the answer is a subtype that was generated for the platform.
-/

namespace Interpose

variable {w w' : World} {e : Emitter} {base : HostType} {interfaces properties : List TypeId}

/-! ## Layers that are added -/

/-- Whether a world is another one with further types, arrays and numbers. -/
structure World.Adds (w w' : World) (new : TypeTable) : Prop where
  types : w'.types = new ++ w.types
  rest : ∃ arrays issued, w' = { w with types := w'.types, arrays := arrays, issued := issued }

/-- Emitting the layers of a subtype adds at most the two, whether it succeeds or not. -/
theorem World.emitLayers_adds (e : Emitter) (label : String) (base : HostType)
    (interfaces properties : List TypeId) (parent : Loader) (w : World) :
    ∃ new, w.Adds (w.emitLayers e label base interfaces properties parent).2 new ∧
      (w.types.Numbered → TypeTable.initial <:+ w.types → w.types.lookup? base.id = some base →
        (∀ i ∈ interfaces, i.index < w.types.length) → (∀ i ∈ properties, i.index < w.types.length) →
        TypeTable.Numbered (new ++ w.types)) := by
  rcases emitLayers_cases e label base interfaces properties parent w with
    ⟨cause, issued, heq⟩ | ⟨b, arrays, w₀, loader, hb, hw₀, hrest⟩
  · rw [heq]
    exact ⟨[], ⟨rfl, _, _, rfl⟩, fun h _ _ _ _ => h⟩
  rcases hrest with ⟨cause, heq⟩ | ⟨proxy, w₁, hproxy, heq⟩
  · rw [heq]
    refine ⟨[b], ⟨by rw [hw₀]; rfl, arrays, w.issued + 1, by rw [hw₀]⟩, ?_⟩
    intro h hstart hbase _ hproperties
    exact hb.numbered h hstart hbase hproperties
  · rw [heq]
    obtain ⟨t, ht, -, hw₁⟩ := Emitter.proxy_eq_ok hproxy
    refine ⟨[t, b], ⟨by rw [hw₁, hw₀]; rfl, _, w.issued + 1, by rw [hw₁, hw₀]⟩, ?_⟩
    intro h hstart hbase hinterfaces hproperties
    have htypes : w₀.types = b :: w.types := by rw [hw₀]
    have hlength : w.types.length < w₀.types.length := by
      rw [htypes]
      exact Nat.lt_succ_self _
    change TypeTable.Numbered (t :: b :: w.types)
    rw [← htypes]
    refine ht.numbered ?_ ?_ (Nat.le_trans hstart.length_le (Nat.le_of_lt hlength)) fun i hi => ?_
    · rw [htypes]
      exact hb.numbered h hstart hbase hproperties
    · rw [htypes]
      exact List.mem_cons_self
    · exact Nat.lt_trans (hinterfaces i hi) hlength

/-- Adding numbered types leaves a later world. -/
theorem World.Adds.later {new : TypeTable} (h : w.Adds w' new)
    (hnumbered : w.Sane → TypeTable.Numbered (new ++ w.types)) : w.Later w' := by
  obtain ⟨arrays, issued, hw⟩ := h.rest
  have hplatform (p : PlatformId) : w'.platform p = w.platform p := by rw [hw]; rfl
  have hdispatchers (i : Nat) (d : Dispatcher) (hd : w.dispatchers[i]? = some d) :
      w'.dispatchers[i]? = some d := by
    rw [hw]
    exact hd
  have hinstalled (id : TypeId) (d : DispatcherId) (hd : w.dispatcherOf? id = some d) :
      w'.dispatcherOf? id = some d := by
    rw [hw]
    exact hd
  have htypes : w.types <:+ w'.types := h.types ▸ List.suffix_append _ _
  refine ⟨htypes, fun i s hs => ⟨s, by rw [hw]; exact hs, rfl, .refl _⟩,
    fun i s hs => ⟨s, by rw [hw]; exact hs, rfl, rfl, rfl⟩, hdispatchers, hinstalled,
    Nat.le_of_eq (by rw [hw]), fun p => by rw [hplatform], fun p => by rw [hplatform], fun hs => ?_⟩
  refine hs.grown htypes (h.types ▸ hnumbered hs) hdispatchers hinstalled (by rw [hw]) (by rw [hw])
    (fun p => by rw [hplatform]) (fun p => ?_) fun p key id hentry => .inl ?_
  · rw [hplatform]
    exact hs.accessors p
  · rw [hplatform] at hentry
    exact hentry

/-- Setting the dispatcher of a type that has none leaves a later world. -/
theorem World.later_of_install {w₁ : World} {id : TypeId} {d : DispatcherId}
    (h : w.install id d = .ok w₁) : w.Later w₁ := by
  rw [install] at h
  split at h
  · cases h
  rename_i hnone
  cases h
  have hinstalled (other : TypeId) (k : DispatcherId) (hk : w.dispatcherOf? other = some k) :
      ({ w with installed := (id, d) :: w.installed } : World).dispatcherOf? other = some k := by
    have hne : id ≠ other := by
      rintro rfl
      rw [hnone] at hk
      cases hk
    rw [dispatcherOf?, List.find?_cons, beq_false_of_ne hne]
    exact hk
  refine ⟨List.suffix_rfl, fun i s hs => ⟨s, hs, rfl, .refl _⟩, fun i s hs => ⟨s, hs, rfl, rfl, rfl⟩,
    fun i d hd => hd, hinstalled, Nat.le_refl _, fun p => rfl, fun p => rfl, fun hs => ?_⟩
  exact hs.grown List.suffix_rfl hs.numbered (fun i d hd => hd) hinstalled rfl rfl (fun p => rfl)
    hs.accessors fun p key id hentry => .inl hentry

theorem World.platforms_of_install {w₁ : World} {id : TypeId} {d : DispatcherId}
    (h : w.install id d = .ok w₁) : w₁.platforms = w.platforms := by
  rw [install] at h
  split at h
  · cases h
  · cases h
    rfl

section

variable {p : PlatformId} {parent : Loader}

/-- Generating a subtype changes nothing, or adds layers and sets at most the dispatcher of a type. -/
theorem World.generate_cases (e : Emitter) (base : TypeId) (interfaces properties : List TypeId)
    (parent : Loader) (d : Option DispatcherId) (w : World) :
    (World.generate e base interfaces properties parent d w).2 = w ∨
    ∃ t w₁, w.types.lookup? base = some t ∧
      (w.emitLayers e (subtypeLoaderName t) t (dedupIds interfaces) properties parent).2 = w₁ ∧
      ((World.generate e base interfaces properties parent d w).2 = w₁ ∨
        ∃ id k, w₁.install id k = .ok (World.generate e base interfaces properties parent d w).2) := by
  cases hlookup : w.types.lookup? base with
  | none =>
      refine .inl ?_
      simp only [generate, hlookup]
  | some t =>
      refine .inr ⟨t, _, rfl, rfl, ?_⟩
      simp only [generate, hlookup]
      rcases w.emitLayers e (subtypeLoaderName t) t (dedupIds interfaces) properties parent with
        ⟨cause | proxy, w₁⟩
      · exact .inl rfl
      · cases d with
        | none => exact .inl rfl
        | some d =>
            dsimp only
            cases hinstall : w₁.install proxy d with
            | error e => exact .inl rfl
            | ok w₂ => exact .inr ⟨proxy, d, hinstall⟩

/-- Generating a subtype leaves a later world, whether it succeeds or not. -/
theorem World.later_generate (e : Emitter) {base : TypeId} (parent : Loader) (d : Option DispatcherId)
    (hdeclared : w.Sane → ∀ i ∈ base :: (interfaces ++ properties), i.index < w.types.length) :
    w.Later (World.generate e base interfaces properties parent d w).2 := by
  rcases generate_cases e base interfaces properties parent d w with
    hsame | ⟨t, w₁, hlookup, hlayers, hleft⟩
  · rw [hsame]
    exact .refl w
  obtain rfl : t.id = base := (TypeTable.mem_of_lookup? hlookup).2
  obtain ⟨new, hadds, hnumbered⟩ := emitLayers_adds e (subtypeLoaderName t) t (dedupIds interfaces)
    properties parent w
  rw [hlayers] at hadds
  have hlater : w.Later w₁ := by
    refine hadds.later fun hs => hnumbered hs.numbered hs.start hlookup (fun i hi => ?_) fun i hi => ?_
    · exact hdeclared hs i (List.mem_cons_of_mem _ (List.mem_append_left _ (mem_of_mem_dedupIds hi)))
    · exact hdeclared hs i (List.mem_cons_of_mem _ (List.mem_append_right _ hi))
  rcases hleft with hsame | ⟨id, k, hinstall⟩
  · rw [hsame]
    exact hlater
  · exact hlater.trans (later_of_install hinstall)

/-- Only what is there can be extended. -/
theorem World.exists_lookup?_of_generate {base id : TypeId} {d : Option DispatcherId}
    (h : World.generate e base interfaces properties parent d w = (.ok id, w')) :
    ∃ t, w.types.lookup? base = some t := by
  cases hlookup : w.types.lookup? base with
  | none =>
      rw [World.generate, hlookup] at h
      cases h
  | some t => exact ⟨t, rfl⟩

/-- What is generated for a platform answers the request. -/
theorem World.answers_of_generate {base id : TypeId} {w₁ : World} (hs : w.Sane)
    (hp : p.index < w.platforms.size)
    (hdeclared : ∀ i ∈ base :: (interfaces ++ properties), i.index < w.types.length)
    (h : World.generate e base interfaces properties parent (some (w.platform p).dispatcher) w =
      (.ok id, w₁)) : w₁.Answers p (CacheKey.of base interfaces properties parent) id := by
  obtain ⟨t, hlookup⟩ := exists_lookup?_of_generate h
  obtain rfl : t.id = base := (TypeTable.mem_of_lookup? hlookup).2
  obtain ⟨s, hid, hsubtype, hroutes⟩ := hasSubtype_of_generate hs.numbered hs.start hlookup
    (fun i hi => hdeclared i (List.mem_cons_of_mem _ (List.mem_append_left _ hi)))
    (fun i hi => hdeclared i (List.mem_cons_of_mem _ (List.mem_append_right _ hi)))
    (hs.routing p hp) (hs.accessors p) h
  exact ⟨t, interfaces, properties, parent, s, rfl, hid, hsubtype, hroutes.dispatcher⟩

end

/-! ## Registries -/

/-- Putting a registry back in which all subtypes answer their keys leaves a later world. -/
theorem World.Later.put_registry {w₁ : World} (hlater : w.Later w₁) {p : PlatformId} {r : Registry}
    (h : w.Sane → p.index < w₁.platforms.size → ∀ key id, (key, some id) ∈ r.entries →
      w₁.Answers p key id) :
    w.Later { w₁ with platforms := w₁.platforms.modify p.index fun s => { s with registry := r } } := by
  have hplatform (q : PlatformId) := w₁.platform_modify p q fun s => { s with registry := r }
  refine ⟨hlater.types, hlater.objects, hlater.instances, hlater.dispatchers, hlater.installed,
    (Array.size_modify ..).symm ▸ hlater.size, fun q => ?_, fun q => ?_, fun hs => ?_⟩
  · rw [hplatform, ← hlater.options q]
    split <;> rfl
  · rw [hplatform, ← hlater.constructing q]
    split <;> rfl
  · have hs₁ := hlater.sane hs
    refine hs₁.grown List.suffix_rfl hs₁.numbered (fun i d hd => hd) (fun id d hd => hd) rfl
      (Array.size_modify ..) (fun q => ?_) (fun q => ?_) fun q key id hentry => ?_
    · rw [hplatform]
      split <;> rfl
    · have hsound := hs₁.accessors q
      rw [hplatform]
      split <;> exact hsound
    · rw [hplatform] at hentry
      split at hentry
      · rename_i hq
        obtain ⟨rfl, hp⟩ := hq
        exact .inr ((h hs hp key id hentry).grown List.suffix_rfl hs₁.numbered (fun i d hd => hd)
          fun id d hd => hd)
      · exact .inl hentry

/-- The entries of a registry after a key was set. -/
theorem Registry.mem_put {r : Registry} {key key' : CacheKey} {subtype : Option TypeId} {id : TypeId}
    (h : (key', some id) ∈ (r.put key subtype).entries) :
    key' = key ∧ subtype = some id ∨ (key', some id) ∈ r.entries := by
  rcases List.mem_cons.1 h with h | h
  · cases h
    exact .inl ⟨rfl, rfl⟩
  · exact .inr (List.mem_filter.1 h).1

/-- The subtype that a registry has for a key is in it. -/
theorem Registry.mem_of_get? {r : Registry} {key : CacheKey} {id : TypeId}
    (h : r.get? key = some id) : (key, some id) ∈ r.entries := by
  obtain ⟨e, he, hid⟩ := Option.bind_eq_some_iff.1 h
  have hkey := List.find?_some he
  rw [beq_iff_eq] at hkey
  rw [← hid, ← hkey]
  exact List.mem_of_find?_eq_some he

/-- A registry answers with what it has for a key, or with what is generated, which it then has. -/
theorem Registry.getOrCreate_cases {σ ε : Type} (r : Registry) (satisfies : TypeId → CacheKey → Bool)
    (key : CacheKey) (create : σ → Except ε TypeId × σ) (s : σ) :
    (∃ t, r.get? key = some t ∧ r.getOrCreate satisfies key create s = (.ok t, r, s)) ∨
    (∃ t s' n, create s = (.ok t, s') ∧ r.getOrCreate satisfies key create s =
      (.ok t, { r.put key (some t) with generations := n }, s')) ∨
    ∃ e s', create s = (.error e, s') ∧
      r.getOrCreate satisfies key create s = (.error e, r.put key none, s') := by
  have hgenerate : (∃ t s' n, create s = (.ok t, s') ∧
        r.generate key create s = (.ok t, { r.put key (some t) with generations := n }, s')) ∨
      ∃ e s', create s = (.error e, s') ∧ r.generate key create s = (.error e, r.put key none, s') := by
    rw [generate]
    rcases create s with ⟨e | t, s'⟩
    · exact .inr ⟨e, s', rfl, rfl⟩
    · exact .inl ⟨t, s', _, rfl, rfl⟩
  rw [getOrCreate_eq]
  cases hget : r.get? key with
  | none => exact .inr hgenerate
  | some t =>
      by_cases hsatisfies : satisfies t key = true
      · exact .inl ⟨t, rfl, if_pos hsatisfies⟩
      · simp only [if_neg hsatisfies]
        exact .inr hgenerate

/-- A request that is answered from a registry or by generating leaves a later world, in which the answer
is a subtype that was generated for the platform. -/
theorem World.later_fromRegistry {p : PlatformId} {key : CacheKey}
    {create : World → Except PlatformError TypeId × World} (hcreate : w.Later (create w).2)
    (hsize : (create w).2.platforms.size = w.platforms.size)
    (hanswers : w.Sane → p.index < w.platforms.size → ∀ id w₁, create w = (.ok id, w₁) →
      w₁.Answers p key id) :
    w.Later (w.fromRegistry p (·.registry) (fun s r => { s with registry := r }) key create).2 ∧
      ∀ id w', w.fromRegistry p (·.registry) (fun s r => { s with registry := r }) key create =
        (.ok id, w') → w.Sane → p.index < w.platforms.size → w'.Answers p key id := by
  -- what the registry had before still answers once a subtype was asked for
  have hbefore {w₁ : World} (h : w.Later w₁) (hs : w.Sane) (key' : CacheKey) (id : TypeId)
      (hentry : (key', some id) ∈ (w.platform p).registry.entries) : w₁.Answers p key' id :=
    (hs.registry p key' id hentry).later h hs
  rw [fromRegistry]
  rcases (w.platform p).registry.getOrCreate_cases w.types.satisfies key create w with
    ⟨t, hget, heq⟩ | ⟨t, w₁, n, hmade, heq⟩ | ⟨e, w₁, hmade, heq⟩
  all_goals rw [heq]
  · have hlater := (Later.refl w).put_registry (p := p) (r := (w.platform p).registry)
      fun hs _ => hs.registry p
    refine ⟨hlater, fun id w' h hs _ => ?_⟩
    cases h
    exact hbefore hlater hs key t (Registry.mem_of_get? hget)
  · rw [hmade] at hcreate hsize
    have hlater := hcreate.put_registry (p := p)
      (r := { (w.platform p).registry.put key (some t) with generations := n })
      fun hs hp key' id hentry => by
        rcases Registry.mem_put hentry with ⟨rfl, hid⟩ | hentry
        · rw [← Option.some.inj hid]
          exact hanswers hs (hsize ▸ hp) t w₁ hmade
        · exact hbefore hcreate hs key' id hentry
    refine ⟨hlater, fun id w' h hs hp => ?_⟩
    cases h
    exact (hanswers hs hp t w₁ hmade).grown List.suffix_rfl (hlater.sane hs).numbered
      (fun i d hd => hd) fun id d hd => hd
  · rw [hmade] at hcreate hsize
    refine ⟨hcreate.put_registry fun hs hp key' id hentry => ?_, fun id w' h => by cases h⟩
    rcases Registry.mem_put hentry with ⟨-, hid⟩ | hentry
    · cases hid
    · exact hbefore hcreate hs key' id hentry

/-- Generating a subtype changes no platform. -/
theorem World.platforms_generate (e : Emitter) (base : TypeId) (interfaces properties : List TypeId)
    (parent : Loader) (d : Option DispatcherId) (w : World) :
    (World.generate e base interfaces properties parent d w).2.platforms = w.platforms := by
  rcases generate_cases e base interfaces properties parent d w with
    hsame | ⟨t, w₁, -, hlayers, hleft⟩
  · rw [hsame]
  obtain ⟨new, hadds, -⟩ := emitLayers_adds e (subtypeLoaderName t) t (dedupIds interfaces)
    properties parent w
  obtain ⟨arrays, issued, hw⟩ := hadds.rest
  rw [hlayers] at hw
  rcases hleft with hsame | ⟨id, k, hinstall⟩
  · rw [hsame, hw]
  · rw [platforms_of_install hinstall, hw]

theorem World.size_generate (e : Emitter) (base : TypeId) (interfaces properties : List TypeId)
    (parent : Loader) (d : Option DispatcherId) (w : World) :
    (World.generate e base interfaces properties parent d w).2.platforms.size = w.platforms.size := by
  rw [platforms_generate]

/-- A request for a subtype leaves a later world. In a sane world the answer is a subtype that was
generated for the platform. -/
theorem World.later_createExtensionType (p : PlatformId) (parent : Loader) {base : TypeId}
    (hdeclared : w.Sane → ∀ i ∈ base :: (interfaces ++ properties), i.index < w.types.length) :
    w.Later (w.createExtensionType p base interfaces properties parent).2 ∧
      ∀ id w', w.createExtensionType p base interfaces properties parent = (.ok id, w') → w.Sane →
        p.index < w.platforms.size →
        w'.Answers p (CacheKey.of base interfaces properties parent) id := by
  rw [createExtensionType]
  split
  · exact ⟨.refl w, fun id w' h => by cases h⟩
  · exact ⟨.refl w, fun id w' h => by cases h⟩
  · exact later_fromRegistry (later_generate _ parent _ hdeclared) (size_generate ..)
      fun hs hp id w₁ h => answers_of_generate hs hp (hdeclared hs) h

/-- A request for a subtype changes at most the registry of the platform. -/
theorem World.platforms_createExtensionType (p : PlatformId) (base : TypeId) (interfaces properties : List TypeId)
    (parent : Loader) (w : World) :
    (w.createExtensionType p base interfaces properties parent).2.platforms = w.platforms ∨
      ∃ r, (w.createExtensionType p base interfaces properties parent).2.platforms =
        w.platforms.modify p.index fun s => { s with registry := r } := by
  rw [createExtensionType]
  split
  · exact .inl rfl
  · exact .inl rfl
  have hgenerate := platforms_generate (w.emitter p) base interfaces properties parent
    (some (w.platform p).dispatcher) w
  refine .inr ?_
  rw [fromRegistry]
  rcases (w.platform p).registry.getOrCreate_cases w.types.satisfies
    (CacheKey.of base interfaces properties parent) (World.generate (w.emitter p) base interfaces properties
      parent (some (w.platform p).dispatcher)) w with
    ⟨t, -, heq⟩ | ⟨t, w₁, n, hmade, heq⟩ | ⟨e, w₁, hmade, heq⟩
  · rw [heq]
    exact ⟨_, rfl⟩
  all_goals
    rw [hmade] at hgenerate
    rw [heq]
    dsimp only at hgenerate ⊢
    rw [hgenerate]
    exact ⟨_, rfl⟩

/-- A request for a subtype adds no platform. -/
theorem World.size_createExtensionType (p : PlatformId) (base : TypeId) (interfaces properties : List TypeId)
    (parent : Loader) (w : World) :
    (w.createExtensionType p base interfaces properties parent).2.platforms.size = w.platforms.size := by
  rcases w.platforms_createExtensionType p base interfaces properties parent with heq | ⟨r, heq⟩
  · rw [heq]
  · rw [heq]
    exact Array.size_modify ..

/-- What a platform has beside its registry stays as it is. -/
theorem World.platform_createExtensionType (p q : PlatformId) (base : TypeId) (interfaces properties : List TypeId)
    (parent : Loader) (w : World) :
    ∃ r, (w.createExtensionType p base interfaces properties parent).2.platform q =
      { w.platform q with registry := r } := by
  rcases w.platforms_createExtensionType p base interfaces properties parent with heq | ⟨r, heq⟩
  · exact ⟨_, by rw [platform, platform, heq]⟩
  · have hmodify := w.platform_modify p q fun s => { s with registry := r }
    rw [platform, heq]
    rw [platform] at hmodify
    rw [hmodify]
    split <;> exact ⟨_, rfl⟩

/-! ## What requests keep -/

/-- Whether a property of worlds stays when layers are defined on types that are there, and rests on nothing but the
types, the arrays, the objects, the script objects and the accessors that platforms remember. -/
structure World.KeptByLayers (P : World → Prop) : Prop where
  bridge : ∀ {e : Emitter} {w w' : World} {base : HostType} {abstracts : List Method} {pairs : List PropertyPair}
    {properties : List TypeId} {loader : Loader} {id : TypeId}, P w → base ∈ w.types →
    e.bridge w base abstracts pairs properties loader = .ok (id, w') → P w'
  proxy : ∀ {e : Emitter} {w w' : World} {b base : HostType} {operations : List Method} {requested : List TypeId}
    {loader : Loader} {id : TypeId}, P w → b ∈ w.types →
    e.proxy w b base operations requested loader = .ok (id, w') → P w'
  rest : ∀ {w w' : World}, P w → w'.types = w.types → w'.arrays = w.arrays → w'.objects = w.objects →
    w'.instances = w.instances → (∀ p, (w'.platform p).accessors = (w.platform p).accessors) → P w'

namespace World.KeptByLayers

variable {P : World → Prop}

/-- Emitting the layers of a subtype keeps such a property. -/
theorem emitLayers (h : KeptByLayers P) (e : Emitter) (label : String) (interfaces properties : List TypeId)
    (parent : Loader) (hbase : base ∈ w.types) (hw : P w) :
    P (w.emitLayers e label base interfaces properties parent).2 := by
  rw [World.emitLayers]
  split
  · exact hw
  have hissued : P (w.addLoader label (some parent)).2 := h.rest hw rfl rfl rfl rfl fun _ => rfl
  dsimp only
  split
  · exact hissued
  rename_i hbridge
  have hkept := h.bridge hissued hbase hbridge
  split
  · exact hkept
  rename_i hlookup
  split
  · exact hkept
  · rename_i hproxy
    exact h.proxy hkept (TypeTable.mem_of_lookup? hlookup).1 hproxy

/-- Generating a subtype keeps it. -/
theorem generate (h : KeptByLayers P) (e : Emitter) (base : TypeId) (interfaces properties : List TypeId)
    (parent : Loader) (d : Option DispatcherId) (hw : P w) :
    P (World.generate e base interfaces properties parent d w).2 := by
  rcases generate_cases e base interfaces properties parent d w with
    hsame | ⟨t, w₁, hlookup, rfl, hleft⟩
  · rwa [hsame]
  have hkept := h.emitLayers e (subtypeLoaderName t) (dedupIds interfaces) properties parent
    (TypeTable.mem_of_lookup? hlookup).1 hw
  rcases hleft with hsame | ⟨id, k, hinstall⟩
  · rwa [hsame]
  · rw [install] at hinstall
    split at hinstall
    · cases hinstall
    · rw [← Except.ok.inj hinstall]
      exact h.rest hkept rfl rfl rfl rfl fun _ => rfl

/-- So does answering a request from a registry, if what is created keeps it. -/
theorem fromRegistry (h : KeptByLayers P) {p : PlatformId} {registry : Platform → Registry}
    {replace : Platform → Registry → Platform} {key : CacheKey}
    {create : World → Except PlatformError TypeId × World}
    (hreplace : ∀ s r, (replace s r).accessors = s.accessors) (hw : P w) (hcreate : P (create w).2) :
    P (w.fromRegistry p registry replace key create).2 := by
  have hput {w : World} (hw : P w) (r : Registry) :
      P { w with platforms := w.platforms.modify p.index fun s => replace s r } := by
    refine h.rest hw rfl rfl rfl rfl fun q => ?_
    rw [platform_modify]
    split
    · exact hreplace _ r
    · rfl
  rw [World.fromRegistry]
  rcases (registry (w.platform p)).getOrCreate_cases w.types.satisfies key create w with
    ⟨t, -, heq⟩ | ⟨t, w₁, n, hmade, heq⟩ | ⟨e, w₁, hmade, heq⟩
  all_goals rw [heq]
  · exact hput hw _
  all_goals
    rw [hmade] at hcreate
    exact hput hcreate _

/-- Requests keep it. -/
theorem createExtensionType (h : KeptByLayers P) (p : PlatformId) (base : TypeId)
    (interfaces properties : List TypeId) (parent : Loader) (hw : P w) :
    P (w.createExtensionType p base interfaces properties parent).2 := by
  rw [World.createExtensionType]
  split
  · exact hw
  · exact hw
  · exact h.fromRegistry (fun _ _ => rfl) hw (h.generate _ base interfaces properties parent _ hw)

/-- So do requests for a dispatcher of the caller's. -/
theorem buildType (h : KeptByLayers P) (r : ExtensionRequest) (p : PlatformId) (hw : P w) :
    P (r.buildType p w).2 := by
  rw [ExtensionRequest.buildType]
  split
  · exact hw
  · exact h.fromRegistry (fun _ _ => rfl) hw (h.generate _ r.base r.interfaces r.properties r.loader _ hw)

end World.KeptByLayers

end Interpose
