import Interpose.Proofs.Bridges
import Interpose.Proofs.Routing

/-!
# Generated subtypes

A subtype is generated once, in two layers, and stays what it is while further types are added. So what
its bodies go up to is told by the hierarchy of its base, as it was then and as it is now.
-/

namespace Interpose

variable {e : Emitter} {w w' w₀ : World} {base b t : HostType} {interfaces properties : List TypeId}
  {op m : Method}

/-- The two layers of a subtype, the bridge on a table of types and the proxy in a world with the
bridge. -/
structure Emitter.Layers (e : Emitter) (older : TypeTable) (w₀ : World) (base : HostType)
    (interfaces properties : List TypeId) (b t : HostType) : Prop where
  bridge : Emitter.Bridge older base (older.harvestAbstract base.id properties) properties b
  types : w₀.types = b :: older
  proxy : e.Proxy w₀ b base (w₀.types.harvest b.id (dedupIds interfaces ++ [TypeId.capability]))
    (dedupIds interfaces) t

/-- Generating a subtype adds its two layers, and sets its dispatcher if it is given one. -/
theorem World.generate_eq_ok {parent : Loader} {d : Option DispatcherId} {proxy : TypeId}
    (hbase : w.types.lookup? base.id = some base)
    (h : World.generate e base.id interfaces properties parent d w = (.ok proxy, w')) :
    ∃ b arrays w₀ t, e.Layers w.types w₀ base interfaces properties b t ∧ proxy = t.id ∧
      w₀ = { w with types := b :: w.types, arrays := arrays, issued := w.issued + 1 } ∧
      w' = { w₀ with
        types := t :: w₀.types
        arrays := w₀.arrays.push ((Array.range (w₀.types.harvest b.id
          (dedupIds interfaces ++ [TypeId.capability])).length).map .operation)
        installed := (d.toList.map fun d => (t.id, d)) ++ w₀.installed } := by
  rw [generate, hbase] at h
  dsimp only at h
  split at h
  · cases h
  rename_i id w₁ hlayers
  obtain ⟨b, arrays, w₀, loader, hbridge, hw₀, hproxy⟩ := emitLayers_eq_ok hlayers
  obtain ⟨t, ht, rfl, hw₁⟩ := Emitter.proxy_eq_ok hproxy
  refine ⟨b, arrays, w₀, t, ⟨hbridge, by rw [hw₀], ht⟩, ?_⟩
  split at h
  · cases h
    exact ⟨rfl, hw₀, hw₁⟩
  · split at h
    · rename_i w₂ hinstall
      cases h
      rw [install] at hinstall
      split at hinstall
      · cases hinstall
      · cases hinstall
        exact ⟨rfl, hw₀, by rw [hw₁]; rfl⟩
    · cases h

/-- A subtype is generated if both of its layers can be defined. -/
theorem World.exists_generate {b : HostType} {parent : Loader} {pairs : List PropertyPair}
    {operations : List Method} {id proxy : TypeId} {d : DispatcherId} {P : World → Prop}
    (hbase : w.types.lookup? base.id = some base)
    (hpairs : w.types.harvestProperties properties = .ok pairs)
    (hbridge : e.bridge (w.addLoader (subtypeLoaderName base) (some parent)).2 base
      (w.types.harvestAbstract base.id properties) pairs properties
      (w.addLoader (subtypeLoaderName base) (some parent)).1 = .ok (id, w₀))
    (hlookup : w₀.types.lookup? id = some b)
    (hoperations : w₀.types.harvest id (dedupIds interfaces ++ [TypeId.capability]) = operations)
    (hproxy : ∃ w₁, e.proxy w₀ b base operations (dedupIds interfaces)
      (w.addLoader (subtypeLoaderName base) (some parent)).1 = .ok (proxy, w₁) ∧
      P { w₁ with installed := (proxy, d) :: w₁.installed })
    (hnone : w₀.dispatcherOf? proxy = none) :
    ∃ w', World.generate e base.id interfaces properties parent (some d) w = (.ok proxy, w') ∧
      P w' := by
  obtain ⟨w₁, hproxy, hP⟩ := hproxy
  obtain ⟨t, -, -, hw₁⟩ := Emitter.proxy_eq_ok hproxy
  have hfree : w₁.dispatcherOf? proxy = none := by
    rw [hw₁]
    exact hnone
  simp only [generate, hbase, emitLayers, hpairs, hbridge, hlookup, hoperations, hproxy, install, hfree]
  exact ⟨_, rfl, hP⟩

/-! ## Numbers of types -/

/-- Leaving out repetitions adds nothing. -/
theorem mem_of_mem_dedupIds {ids : List TypeId} {i : TypeId} (h : i ∈ dedupIds ids) : i ∈ ids := by
  -- for any list that was found before, since the fold starts with longer and longer ones
  have hfold : ∀ ids found : List TypeId, i ∈ ids.foldl (fun found id =>
      if found.contains id then found else found ++ [id]) found → i ∈ found ∨ i ∈ ids := by
    intro ids
    induction ids with
    | nil => exact fun _ => .inl
    | cons id ids ih =>
        intro found hi
        rcases ih _ hi with hi | hi
        · dsimp only at hi
          split at hi
          · exact .inl hi
          · rcases List.mem_append.1 hi with hi | hi
            · exact .inl hi
            · exact .inr (List.mem_singleton.1 hi ▸ List.mem_cons_self)
        · exact .inr (List.mem_cons_of_mem _ hi)
  exact (hfold ids [] h).resolve_left List.not_mem_nil

/-- A bridge on a table is numbered after the types that were there. -/
theorem Emitter.Bridge.numbered {types : TypeTable} {abstracts : List Method} {b : HostType}
    (h : Emitter.Bridge types base abstracts properties b) (hnumbered : types.Numbered)
    (hstart : TypeTable.initial <:+ types) (hbase : types.lookup? base.id = some base)
    (hproperties : ∀ i ∈ properties, i.index < types.length) : TypeTable.Numbered (b :: types) := by
  have hlength : 2 ≤ types.length := hstart.length_le
  have hlt := hnumbered.index_lt (TypeTable.mem_of_lookup? hbase).1
  refine ⟨h.id, fun s hs => ?_, fun s hs => ?_, hnumbered⟩
  · rw [h.superclass] at hs
    cases hs
    split
    · exact Nat.lt_of_lt_of_le (by decide) hlength
    · exact hlt
  · rw [h.interfaces] at hs
    split at hs
    · rcases List.mem_cons.1 hs with rfl | hs
      · exact hlt
      · exact hproperties s hs
    · exact hproperties s hs

/-- A proxy on a numbered table with its bridge is numbered after the types that were there. -/
theorem Emitter.Proxy.numbered {operations : List Method} {requested : List TypeId}
    (h : e.Proxy w₀ b base operations requested t) (hnumbered : w₀.types.Numbered) (hb : b ∈ w₀.types)
    (hlength : 2 ≤ w₀.types.length) (hrequested : ∀ i ∈ requested, i.index < w₀.types.length) :
    TypeTable.Numbered (t :: w₀.types) := by
  refine ⟨h.id, fun s hs => ?_, fun s hs => ?_, hnumbered⟩
  · rw [h.superclass] at hs
    cases hs
    exact hnumbered.index_lt hb
  · rw [h.interfaces] at hs
    rcases List.mem_append.1 hs with hs | hs
    · exact hrequested s hs
    · rw [List.mem_singleton.1 hs]
      exact Nat.lt_of_lt_of_le (by decide) hlength

/-- The layers of a subtype are numbered after the types that were there. -/
theorem Emitter.Layers.numbered {older : TypeTable}
    (h : e.Layers older w₀ base interfaces properties b t) (hnumbered : older.Numbered)
    (hstart : TypeTable.initial <:+ older) (hbase : older.lookup? base.id = some base)
    (hinterfaces : ∀ i ∈ interfaces, i.index < older.length)
    (hproperties : ∀ i ∈ properties, i.index < older.length) :
    TypeTable.Numbered (t :: w₀.types) := by
  have hlength : older.length < w₀.types.length := by rw [h.types]; exact Nat.lt_succ_self _
  refine h.proxy.numbered ?_ ?_ (Nat.le_trans hstart.length_le (Nat.le_of_lt hlength)) fun i hi => ?_
  · rw [h.types]
    exact h.bridge.numbered hnumbered hstart hbase hproperties
  · rw [h.types]
    exact List.mem_cons_self
  · exact Nat.lt_trans (hinterfaces i (mem_of_mem_dedupIds hi)) hlength

/-- What is remembered of accessors stays right while types are added. -/
theorem AccessorCache.Sound.append {new types : TypeTable} {cache : AccessorCache}
    (h : cache.Sound types) (hnumbered : TypeTable.Numbered (new ++ types)) :
    cache.Sound (new ++ types) := by
  intro entry hentry
  obtain ⟨hslot, hfound⟩ := h entry hentry
  refine ⟨hslot, ?_⟩
  have hlt : entry.1.1.index < types.length := by
    obtain ⟨s, hs, -⟩ := List.mem_flatMap.1 (List.mem_of_find?_eq_some (TypeTable.find?_of_findAccessor hfound))
    exact hnumbered.of_append.index_lt_of_mem_lineage hs
  rw [← hfound, TypeTable.findAccessor, TypeTable.findAccessor,
    TypeTable.lineage_append fun s => hnumbered.ne_of_mem hlt, TypeTable.nameOf, TypeTable.nameOf,
    hnumbered.lookup?_append hlt]

/-! ## Subtypes in a world -/

/-- Whether a type is the subtype that was generated for a base with interfaces and properties in a world
that has only got further types since. -/
structure World.HasSubtype (w : World) (base : HostType) (interfaces properties : List TypeId)
    (t : HostType) : Prop where
  generated : ∃ (e : Emitter) (w₀ w₁ : World) (parent : Loader) (d : Option DispatcherId),
    TypeTable.initial <:+ w₀.types ∧ w₀.types.lookup? base.id = some base ∧
    World.generate e base.id interfaces properties parent d w₀ = (.ok t.id, w₁) ∧
    w₁.types.lookup? t.id = some t ∧ w₁.types <:+ w.types
  numbered : w.types.Numbered

/-- A world in which a subtype was generated has it, with its table and with the dispatcher that it was given. -/
theorem World.exists_hasSubtype {parent : Loader} {d : Option DispatcherId} {proxy : TypeId}
    (hnumbered : w.types.Numbered) (hstart : TypeTable.initial <:+ w.types)
    (hbase : w.types.lookup? base.id = some base)
    (hinterfaces : ∀ i ∈ interfaces, i.index < w.types.length)
    (hproperties : ∀ i ∈ properties, i.index < w.types.length)
    (h : World.generate e base.id interfaces properties parent d w = (.ok proxy, w')) :
    ∃ t, proxy = t.id ∧ w'.HasSubtype base interfaces properties t ∧ w'.types.lookup? t.id = some t ∧
      (∀ g, t.generated = some g →
        w'.arrays[g.table.index]? = some ((Array.range g.operations.length).map .operation)) ∧
      ∀ d' ∈ d, w'.dispatcherOf? t.id = some d' := by
  obtain ⟨b, arrays, w₀, t, hlayers, hid, -, hw'⟩ := generate_eq_ok hbase h
  have htypes : w'.types = t :: w₀.types := by rw [hw']
  have hlookup : w'.types.lookup? t.id = some t := by
    rw [htypes, TypeTable.lookup?, List.find?_cons, beq_self_eq_true]
  have hnumbered' : w'.types.Numbered := by
    rw [htypes]
    exact hlayers.numbered hnumbered hstart hbase hinterfaces hproperties
  refine ⟨t, hid, ⟨⟨e, w, w', parent, d, hstart, hbase, hid ▸ h, hlookup, List.suffix_rfl⟩, hnumbered'⟩,
    hlookup, fun g hg => ?_, fun d' hd => ?_⟩
  · rw [hlayers.proxy.generated] at hg
    cases hg
    rw [hw', Array.getElem?_push_size]
  · rw [hw', dispatcherOf?, Option.mem_def.1 hd]
    simp

/-- With the dispatcher of a platform, calls of the operations of a generated subtype go to the platform. -/
theorem World.hasSubtype_of_generate {parent : Loader} {d : DispatcherId} {proxy : TypeId}
    {p : PlatformId} (hnumbered : w.types.Numbered) (hstart : TypeTable.initial <:+ w.types)
    (hbase : w.types.lookup? base.id = some base)
    (hinterfaces : ∀ i ∈ interfaces, i.index < w.types.length)
    (hproperties : ∀ i ∈ properties, i.index < w.types.length)
    (hdispatcher : w.dispatchers[d.index]? = some (.routing p))
    (hsound : (w.platform p).accessors.Sound w.types)
    (h : World.generate e base.id interfaces properties parent (some d) w = (.ok proxy, w')) :
    ∃ t, proxy = t.id ∧ w'.HasSubtype base interfaces properties t ∧ w'.Routes p t := by
  obtain ⟨t, hid, ht, hlookup, htable, hd⟩ :=
    exists_hasSubtype hnumbered hstart hbase hinterfaces hproperties h
  obtain ⟨b, arrays, w₀, s, hlayers, -, hw₀, hw'⟩ := generate_eq_ok hbase h
  have hall : w'.types = [s, b] ++ w.types := by rw [hw', hlayers.types]; rfl
  refine ⟨t, hid, ht, hlookup, htable, ⟨d, hd d rfl, ?_⟩, ?_⟩
  · rw [hw', hw₀]
    exact hdispatcher
  · have hplatform : w'.platform p = w.platform p := by rw [hw', hw₀]; rfl
    rw [hplatform, hall]
    exact hsound.append (hall ▸ ht.numbered)

/-- A subtype stays while types are added. -/
theorem World.HasSubtype.grown (h : w.HasSubtype base interfaces properties t)
    (hgrown : w.types <:+ w'.types) (hnumbered : w'.types.Numbered) :
    w'.HasSubtype base interfaces properties t := by
  obtain ⟨e, w₀, w₁, parent, d, hstart, hbase, hgenerate, hlookup, hsuffix⟩ := h.generated
  exact ⟨⟨e, w₀, w₁, parent, d, hstart, hbase, hgenerate, hlookup, hsuffix.trans hgrown⟩, hnumbered⟩

/-- What stands of a subtype in a world: its layers, and under them the types that were there before. -/
structure World.Stands (w : World) (e : Emitter) (older : TypeTable) (w₀ : World) (base : HostType)
    (interfaces properties : List TypeId) (b t : HostType) : Prop extends
    e.Layers older w₀ base interfaces properties b t where
  start : TypeTable.initial <:+ older
  base : older.lookup? base.id = some base
  grown : t :: w₀.types <:+ w.types
  numbered : w.types.Numbered

theorem World.HasSubtype.stands (h : w.HasSubtype base interfaces properties t) :
    ∃ e older w₀ b, w.Stands e older w₀ base interfaces properties b t := by
  obtain ⟨e, w₀, w₁, parent, d, hstart, hbase, hgenerate, hlookup, hgrown⟩ := h.generated
  obtain ⟨b, arrays, w₀', s, hlayers, hid, -, hw₁⟩ := generate_eq_ok hbase hgenerate
  have htypes : w₁.types = s :: w₀'.types := by rw [hw₁]
  have hst : s = t := by
    rw [htypes, TypeTable.lookup?, List.find?_cons, hid, beq_self_eq_true] at hlookup
    exact Option.some.inj hlookup
  subst hst
  exact ⟨e, w₀.types, w₀', b, hlayers, hstart, hbase, htypes ▸ hgrown, h.numbered⟩

/-- Whether what a slot reaches on a base is what layers above the base go up to: subtypes see it, and
it is in the class chain, or no properties come between. -/
structure TypeTable.Lends (types : TypeTable) (base : HostType) (properties : List TypeId)
    (m : Method) : Prop where
  visible : (m.modifiers.isPublic || m.modifiers.isProtected) = true
  direct : base.isInterface = false ∧ m ∈ (types.lineage base.id).flatMap (·.methods) ∨
    properties = [] ∧ (base.isInterface = true → base.superclass = none)

namespace World.Stands

variable {older : TypeTable}

theorem aside (h : w.Stands e older w₀ base interfaces properties b t) (haside : w.Aside w') :
    w'.Stands e older w₀ base interfaces properties b t :=
  { h with
    grown := haside.types ▸ h.grown
    numbered := haside.types ▸ h.numbered }

/-- The types that were there before the layers are numbered. -/
theorem numbered_layers (h : w.Stands e older w₀ base interfaces properties b t) :
    TypeTable.Numbered (t :: w₀.types) := by
  obtain ⟨new, hnew⟩ := h.grown
  exact TypeTable.Numbered.of_append (hnew ▸ h.numbered)

/-- The subtype is there. -/
theorem lookup (h : w.Stands e older w₀ base interfaces properties b t) :
    w.types.lookup? t.id = some t := by
  obtain ⟨new, hnew⟩ := h.grown
  have hnumbered : TypeTable.Numbered (new ++ (t :: w₀.types)) := hnew ▸ h.numbered
  rw [← hnew, hnumbered.lookup?_append (h.numbered_layers.index_lt List.mem_cons_self),
    TypeTable.lookup?, List.find?_cons, beq_self_eq_true]

/-- The operations of the subtype are those that its proxy takes over. -/
theorem operations (h : w.Stands e older w₀ base interfaces properties b t) :
    (w.types.proxy? t.id).map (·.operations) =
      some (w₀.types.harvest b.id (dedupIds interfaces ++ [TypeId.capability])) :=
  congrArg (Option.map _) (h.proxy.proxy?_eq h.lookup)

/-- An operation of the subtype is one that its proxy takes over. -/
theorem getElem?_operations {n : Nat} (h : w.Stands e older w₀ base interfaces properties b t)
    (hop : (w.types.proxy? t.id).bind (·.operations[n]?) = some op) :
    (w₀.types.harvest b.id (dedupIds interfaces ++ [TypeId.capability]))[n]? = some op := by
  rw [h.proxy.proxy?_eq h.lookup] at hop
  exact hop

/-- The types that were there before the base was extended are older than all others. -/
theorem grown_base (h : w.Stands e older w₀ base interfaces properties b t) :
    ∃ new, w.types = new ++ older ∧ TypeTable.Numbered (new ++ older) ∧
      base.id.index < older.length := by
  obtain ⟨new, hnew⟩ := h.grown
  have hall : w.types = new ++ [t, b] ++ older := by rw [← hnew, h.types, List.append_assoc]; rfl
  have hnumbered : TypeTable.Numbered (new ++ [t, b] ++ older) := hall ▸ h.numbered
  exact ⟨_, hall, hnumbered, hnumbered.of_append.index_lt (TypeTable.mem_of_lookup? h.base).1⟩

/-- The operations of the base are what they were. -/
theorem methodsOf_base (h : w.Stands e older w₀ base interfaces properties b t) :
    w.types.methodsOf base.id = older.methodsOf base.id := by
  obtain ⟨new, hall, hnumbered, hlt⟩ := h.grown_base
  rw [hall, hnumbered.methodsOf_append hlt]

/-- The class chain of the base is what it was. -/
theorem lineage_base (h : w.Stands e older w₀ base interfaces properties b t) :
    w.types.lineage base.id = older.lineage base.id := by
  obtain ⟨new, hall, hnumbered, hlt⟩ := h.grown_base
  rw [hall, TypeTable.lineage_append fun s => hnumbered.ne_of_mem hlt]

/-- The body above the proxy of what the base lends is its own. -/
theorem superTarget?_eq (h : w.Stands e older w₀ base interfaces properties b t)
    (hop : op ∈ w₀.types.harvest b.id (dedupIds interfaces ++ [TypeId.capability]))
    (hm : w.types.findVirtual? base.id op.slot = some m) (hconcrete : m.isAbstract = false)
    (hlends : w.types.Lends base properties m) : Layer.superTarget? w₀.types b.id op = some m := by
  rw [TypeTable.findVirtual?, h.methodsOf_base] at hm
  rcases hlends.direct with ⟨hclass, hmem⟩ | ⟨hnone, hsuper⟩
  · refine h.bridge.superTarget?_of_lineage hclass h.types hop ?_ hconcrete hlends.visible
    rw [h.lineage_base] at hmem
    obtain ⟨k, -, hk, -⟩ := exists_find?_of_mem hmem (List.find?_some hm)
    rw [TypeTable.methodsOf, List.find?_append, hk, Option.some_or] at hm
    rw [hk, hm]
  · subst hnone
    exact h.bridge.superTarget?_of_base h.types h.numbered_layers.2.2.2 h.start h.base hsuper hop hm
      hconcrete hlends.visible

end World.Stands

/-! ## A class with overloads -/

/-- An operation on anything that has no body. -/
def measureNothing : Method :=
  ⟨"measure", [.object], .primitive .int, .public ||| .abstract, "Gauge", ⟨2⟩, .abstract⟩

/-- The same with a body. -/
def measureObject : Method :=
  ⟨"measure", [.object], .primitive .int, .public, "Gauge", ⟨2⟩,
    .native fun _ _ => .done (.prim (.int 0))⟩

/-- An overload of it for strings. -/
def measureString : Method :=
  ⟨"measure", [.reference stringName], .primitive .int, .public, "Gauge", ⟨2⟩,
    .native fun _ _ => .done (.prim (.int 1))⟩

/-- A class that declares some of these. -/
def gauge (methods : List Method) : HostType :=
  ⟨⟨2⟩, "Gauge", .cls, .public, some .root, [], methods, [], [], .system, none⟩

/-- What succeeds, with a property that can be decided. -/
theorem exists_eq_ok_of_decide {ε α β : Type} {x : Except ε (α × β)} {a : α} {P : β → Prop}
    [DecidableEq α] [DecidablePred P] (h : x.toOption.any (fun c => c.1 = a && P c.2) = true) :
    ∃ b, x = .ok (a, b) ∧ P b := by
  cases x with
  | error _ => cases h
  | ok c =>
      simp only [Except.toOption, Option.any_some, Bool.and_eq_true, decide_eq_true_eq] at h
      obtain ⟨rfl, hP⟩ := h
      exact ⟨_, rfl, hP⟩

/-- Whether the operations of the proxy of a class with overloads are those of the capability and the
overloads, in this order. -/
def TypeTable.ListsOverloads (types : TypeTable) : Prop :=
  (types.proxy? ⟨4⟩).map (fun g => g.operations.map fun op =>
    (op.slot, op.isVirtual, op.declaring == capabilityName)) =
      some [(capabilitySlot, true, true), (measureObject.slot, true, false),
        (measureString.slot, true, false)] ∧
  (types.proxy? ⟨4⟩).map (fun g => g.operations[2]?.map (·.declaring)) = some (some "Gauge")

instance : DecidablePred TypeTable.ListsOverloads := fun _ => inferInstanceAs (Decidable (_ ∧ _))

/-- A subtype of the class is generated for the platform that is there at first. -/
theorem exists_generate_gauge {methods : List Method}
    (h : methods = [measureNothing, measureString] ∨ methods = [measureString, measureObject]) :
    ∃ w, World.generate ⟨.weave, false⟩ (gauge methods).id [] [] .system (some ⟨0⟩)
      { World.initial {} with types := gauge methods :: TypeTable.initial } = (.ok ⟨4⟩, w) ∧
      w.types.ListsOverloads := by
  rcases h with rfl | rfl
  all_goals
    apply World.exists_generate (P := fun w => w.types.ListsOverloads)
    · rfl
    · rfl
    · rw [TypeTable.harvestAbstract, TypeTable.harvest, TypeTable.interfaceList, TypeTable.extendFound]
      rfl
    · rfl
    · exact TypeTable.harvest_singleton rfl rfl rfl
    · apply exists_eq_ok_of_decide (P := fun w : World => w.types.ListsOverloads)
      decide +kernel
    · rfl

/-- The types of the class are numbered. -/
theorem numbered_gauge (methods : List Method) :
    TypeTable.Numbered (gauge methods :: TypeTable.initial) := by
  have hnone (s : TypeId) (n : Nat) : s ∈ (none : Option TypeId) → s.index < n := nofun
  have hempty (s : TypeId) (n : Nat) : s ∈ ([] : List TypeId) → s.index < n := nofun
  refine ⟨rfl, fun s hs => ?_, fun s => hempty s _, rfl, fun s => hnone s _, fun s => hempty s _, rfl,
    fun s => hnone s _, fun s => hempty s _, trivial⟩
  cases hs
  decide

/-- An object of the subtype. -/
def gaugeObject : ObjectRef :=
  ⟨0, ⟨4⟩⟩

/-- A script object for it whose script type has no functions. -/
def gaugeScript (methods : List Method) : Instance :=
  ⟨TypeTable.extendScript (gauge methods :: TypeTable.initial) "Script" (gauge methods).id [] [] [],
    gaugeObject, .first, []⟩

/-- Whether a world has a subtype of the class whose calls are routed, an object of it, and a script object
that is held. -/
structure World.HasGauge (w : World) (methods : List Method) (binding : Binding) (t : HostType) :
    Prop where
  subtype : w.HasSubtype (gauge methods) [] [] t
  routes : w.Routes .first t
  id : t.id = ⟨4⟩
  idle : (w.platform .first).constructing = none
  objects : w.objects = #[⟨⟨4⟩, [], binding⟩]
  instances : w.instances = #[gaugeScript methods]
  held : w.held = [.instance ⟨0⟩]
  methods : w.types.methodsOf (gauge methods).id = methods
  lists : w.types.ListsOverloads

theorem exists_hasGauge {methods : List Method} (binding : Binding)
    (h : methods = [measureNothing, measureString] ∨ methods = [measureString, measureObject]) :
    ∃ (w : World) (t : HostType), w.HasGauge methods binding t := by
  obtain ⟨w, hgenerate, hlists⟩ := exists_generate_gauge h
  have hempty (n : Nat) (s : TypeId) : s ∈ ([] : List TypeId) → s.index < n := nofun
  obtain ⟨t, hid, ht, hroutes⟩ := World.hasSubtype_of_generate (p := .first) (numbered_gauge methods)
    ⟨[_], rfl⟩ rfl (hempty _) (hempty _) rfl (AccessorCache.sound_nil 0) hgenerate
  obtain ⟨b, arrays, w₀, s, hlayers, -, hw₀, hw⟩ := World.generate_eq_ok rfl hgenerate
  have hmethods : w.types.methodsOf (gauge methods).id = methods := by
    have hall : w.types = [s, b] ++ (gauge methods :: TypeTable.initial) := by rw [hw, hw₀]; rfl
    have hnumbered : TypeTable.Numbered ([s, b] ++ (gauge methods :: TypeTable.initial)) :=
      hall ▸ ht.numbered
    have hlt : (gauge methods).id.index < (gauge methods :: TypeTable.initial).length :=
      Nat.lt_succ_self 2
    rw [hall, hnumbered.methodsOf_append hlt]
    exact (List.append_nil _).trans (List.append_nil _)
  have hidle : (w.platform .first).constructing = none := by
    rw [hw, hw₀]
    rfl
  exact ⟨{ w with
      objects := #[⟨⟨4⟩, [], binding⟩]
      instances := #[gaugeScript methods]
      held := [.instance ⟨0⟩] },
    t, ⟨ht.generated, ht.numbered⟩, ⟨hroutes.lookup, hroutes.table, hroutes.dispatcher,
      hroutes.accessors⟩, hid.symm, hidle, rfl, rfl, rfl, hmethods, hlists⟩

namespace World.HasGauge

variable {methods : List Method} {binding : Binding}

theorem cls (h : w.HasGauge methods binding t) : gaugeObject.cls = t.id := h.id.symm

/-- The object is bound to the script object if it is said to be. -/
theorem bound (h : w.HasGauge methods (.bound ⟨0⟩) t) :
    w.Bound .first gaugeObject ⟨0⟩ (gaugeScript methods) where
  idle := by
    rw [h.idle]
    nofun
  binds := by
    have hstate : w.objects[gaugeObject.index]? = some ⟨⟨4⟩, [], .bound ⟨0⟩⟩ := by
      rw [h.objects]
      rfl
    have hroot : Holder.instance ⟨0⟩ ∈ w.held := by
      rw [h.held]
      exact List.mem_singleton_self _
    exact World.binds_of_mem_roots hstate rfl (List.mem_append_left _ hroot)
  «instance» := by
    rw [h.instances]
    rfl
  bridge := rfl

/-- The script object leaves all calls to the class. -/
theorem leaves (h : w.HasGauge methods binding t) (name : String) (count : Nat) :
    (gaugeScript methods).script.Leaves w.types (gauge methods).id name count :=
  ⟨_, _, _, _, [], rfl, (List.append_nil _).trans ((List.append_nil _).trans h.methods.symm), nofun,
    nofun⟩

/-- The operations of the subtype are that of the capability and the overloads. -/
theorem operations (h : w.HasGauge methods binding t) :
    ∃ a b c, (w.types.proxy? t.id).map (·.operations) = some [a, b, c] ∧ a.slot = capabilitySlot ∧
      (b.slot = measureObject.slot ∧ b.isVirtual = true ∧ b.declaring ≠ capabilityName) ∧
      (c.slot = measureString.slot ∧ c.isVirtual = true ∧ c.declaring ≠ capabilityName) ∧
      c.declaring = "Gauge" := by
  obtain ⟨hslots, hdeclaring⟩ := h.lists
  rw [← h.id] at hslots hdeclaring
  obtain ⟨g, hg, hslots⟩ := Option.map_eq_some_iff.1 hslots
  rw [hg] at hdeclaring ⊢
  obtain ⟨a, rest, hall, ha, hrest⟩ := List.map_eq_cons_iff.1 hslots
  obtain ⟨b, rest, rfl, hb, hrest⟩ := List.map_eq_cons_iff.1 hrest
  obtain ⟨c, rest, rfl, hc, hrest⟩ := List.map_eq_cons_iff.1 hrest
  obtain rfl := List.map_eq_nil_iff.1 hrest
  rw [Option.map_some, hall] at hdeclaring
  simp only [Prod.mk.injEq, beq_eq_false_iff_ne] at ha hb hc
  exact ⟨a, b, c, congrArg some hall, ha.1, hb, hc, Option.some.inj (Option.some.inj hdeclaring)⟩

/-- Each of the overloads has an accessor of its own. -/
theorem findAccessor_eq {n : Nat} (h : w.HasGauge methods binding t)
    (hop : (w.types.proxy? t.id).bind (·.operations[n]?) = some op) (hn : n ≠ 0) :
    ∃ own, t.methods[2 * n + 1]? = some own ∧ w.types.findAccessor t.id op = .ok own := by
  obtain ⟨a, b, c, hoperations, ha, ⟨hb, -⟩, ⟨hc, -⟩, -⟩ := h.operations
  obtain ⟨-, -, haparams⟩ := Slot.mk.inj ha
  obtain ⟨hbname, hbreturns, hbparams⟩ := Slot.mk.inj hb
  obtain ⟨hcname, hcreturns, hcparams⟩ := Slot.mk.inj hc
  obtain ⟨e, older, w₀, layer, hs⟩ := h.subtype.stands
  have hlisted := hs.getElem?_operations hop
  have hall := hs.operations
  rw [hoperations] at hall
  obtain ⟨_, _, -, -, hupward⟩ := hs.proxy.upward hlisted
  refine ⟨_, hupward, hs.proxy.findAccessor_eq hlisted hupward hs.lookup fun {j k} hk hparams => ?_⟩
  rw [← Option.some.inj hall] at hk hlisted
  -- no two of the three have the same parameters
  have hnone : ([] : List ValueType) ≠ [.object] ∧ ([] : List ValueType) ≠ [.reference stringName] ∧
      [ValueType.object] ≠ [.reference stringName] := by decide
  have hmark : "measure" ≠ Naming.accessor "measure" (.primitive .int) := by decide +kernel
  rcases n with _ | _ | _ | n
  · exact absurd rfl hn
  · obtain rfl := Option.some.inj hlisted
    rw [hbparams] at hparams
    rcases j with _ | _ | _ | j
    · obtain rfl := Option.some.inj hk
      exact absurd (haparams.symm.trans hparams) hnone.1
    · obtain rfl := Option.some.inj hk
      rw [hbname, hbreturns]
      exact ⟨hmark, fun _ => rfl⟩
    · obtain rfl := Option.some.inj hk
      exact absurd (hparams.symm.trans hcparams) hnone.2.2
    · cases hk
  · obtain rfl := Option.some.inj hlisted
    rw [hcparams] at hparams
    rcases j with _ | _ | _ | j
    · obtain rfl := Option.some.inj hk
      exact absurd (haparams.symm.trans hparams) hnone.2.1
    · obtain rfl := Option.some.inj hk
      exact absurd (hbparams.symm.trans hparams) hnone.2.2
    · obtain rfl := Option.some.inj hk
      rw [hcname, hcreturns]
      exact ⟨hmark, fun _ => rfl⟩
    · cases hk
  · cases hlisted

end World.HasGauge

end Interpose
