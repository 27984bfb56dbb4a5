import Interpose.Machine.Names
import Interpose.Proofs.Subtypes

/-!
# Later worlds

What is there stays there: types are only added, an object keeps its class, a script object keeps its
script type and its bridge, a binding is set once, a dispatcher that was set stays, and whatever a platform
marks as under construction is marked again in the end. A world is sane if its types are numbered and its
platforms found what they remember; later worlds of a sane world are sane.
-/

namespace Interpose

/-! ## Sane worlds -/

/-- Whether the types that a script type extends are in a table. -/
def ScriptType.Declared (types : TypeTable) (s : ScriptType) : Prop :=
  ∀ i ∈ s.base :: (s.interfaces ++ s.propertyInterfaces), i.index < types.length

theorem ScriptType.Declared.mono {types types' : TypeTable} {s : ScriptType} (h : s.Declared types)
    (hgrown : types <:+ types') : s.Declared types' :=
  fun i hi => Nat.lt_of_lt_of_le (h i hi) hgrown.length_le

/-- Whether a type is the subtype that was generated for a platform. -/
structure World.Provides (w : World) (p : PlatformId) (base : HostType)
    (interfaces properties : List TypeId) (t : HostType) : Prop where
  subtype : w.HasSubtype base interfaces properties t
  dispatcher : ∃ d, w.dispatcherOf? t.id = some d ∧ w.dispatchers[d.index]? = some (.routing p)

/-- Whether a type is a subtype that answers the requests of a key to a platform. -/
def World.Answers (w : World) (p : PlatformId) (key : CacheKey) (id : TypeId) : Prop :=
  ∃ base interfaces properties loader t, key = CacheKey.of base.id interfaces properties loader ∧
    id = t.id ∧ w.Provides p base interfaces properties t

/-- Whether types are numbered, script types that are kept extend types that are there, and each platform
has its own dispatcher, remembers no wrong accessors, and holds subtypes that were generated for it. -/
structure World.Sane (w : World) : Prop where
  numbered : w.types.Numbered
  start : TypeTable.initial <:+ w.types
  scripts : ∀ n ∈ w.names.scripts, n.2.Declared w.types
  routing : ∀ p : PlatformId, p.index < w.platforms.size →
    w.dispatchers[(w.platform p).dispatcher.index]? = some (.routing p)
  accessors : ∀ p, (w.platform p).accessors.Sound w.types
  registry : ∀ p key id, (key, some id) ∈ (w.platform p).registry.entries → w.Answers p key id

/-! ## What stays -/

/-- Whether a binding can turn into another one: it is set once, and lapses at most. -/
def Binding.Becomes (b b' : Binding) : Prop := b = .unbound ∨ b' = b ∨ b' = .lapsed

theorem Binding.Becomes.refl (b : Binding) : b.Becomes b := .inr (.inl rfl)

theorem Binding.Becomes.trans {a b c : Binding} (h : a.Becomes b) (h' : b.Becomes c) : a.Becomes c := by
  rcases h with rfl | rfl | rfl
  · exact .inl rfl
  · exact h'
  · rcases h' with h' | rfl | rfl
    · cases h'
    · exact .inr (.inr rfl)
    · exact .inr (.inr rfl)

/-- Whether an object can be in another state later. -/
structure ObjectState.Becomes (s s' : ObjectState) : Prop where
  cls : s'.cls = s.cls
  binding : s.binding.Becomes s'.binding

/-- Whether a script object can be in another state later. -/
structure Instance.Becomes (i i' : Instance) : Prop where
  script : i'.script = i.script
  bridge : i'.bridge = i.bridge
  platform : i'.platform = i.platform

/-- Whether a world can come after another one. -/
structure World.Later (w w' : World) : Prop where
  types : w.types <:+ w'.types
  objects : ∀ (i : Nat) s, w.objects[i]? = some s → ∃ s', w'.objects[i]? = some s' ∧ s.Becomes s'
  instances : ∀ (i : Nat) s, w.instances[i]? = some s → ∃ s', w'.instances[i]? = some s' ∧ s.Becomes s'
  dispatchers : ∀ (i : Nat) d, w.dispatchers[i]? = some d → w'.dispatchers[i]? = some d
  installed : ∀ id d, w.dispatcherOf? id = some d → w'.dispatcherOf? id = some d
  size : w.platforms.size ≤ w'.platforms.size
  options : ∀ p, (w'.platform p).options = (w.platform p).options
  constructing : ∀ p, (w'.platform p).constructing = (w.platform p).constructing
  sane : w.Sane → w'.Sane

namespace World

variable {w w' w'' : World}

theorem Later.refl (w : World) : w.Later w where
  types := List.suffix_rfl
  objects _ s h := ⟨s, h, rfl, .refl _⟩
  instances _ s h := ⟨s, h, rfl, rfl, rfl⟩
  dispatchers _ _ h := h
  installed _ _ h := h
  size := Nat.le_refl _
  options _ := rfl
  constructing _ := rfl
  sane h := h

theorem Later.trans (h : w.Later w') (h' : w'.Later w'') : w.Later w'' where
  types := h.types.trans h'.types
  objects i s hs := by
    obtain ⟨s', hs', hcls, hbinding⟩ := h.objects i s hs
    obtain ⟨s'', hs'', hcls', hbinding'⟩ := h'.objects i s' hs'
    exact ⟨s'', hs'', hcls'.trans hcls, hbinding.trans hbinding'⟩
  instances i s hs := by
    obtain ⟨s', hs', hscript, hbridge, hplatform⟩ := h.instances i s hs
    obtain ⟨s'', hs'', hscript', hbridge', hplatform'⟩ := h'.instances i s' hs'
    exact ⟨s'', hs'', hscript'.trans hscript, hbridge'.trans hbridge, hplatform'.trans hplatform⟩
  dispatchers i d hd := h'.dispatchers i d (h.dispatchers i d hd)
  installed id d hd := h'.installed id d (h.installed id d hd)
  size := Nat.le_trans h.size h'.size
  options p := (h'.options p).trans (h.options p)
  constructing p := (h'.constructing p).trans (h.constructing p)
  sane hs := h'.sane (h.sane hs)

/-- What a platform provides it keeps providing. -/
theorem Provides.grown {p : PlatformId} {base t : HostType} {interfaces properties : List TypeId}
    (h : w.Provides p base interfaces properties t) (htypes : w.types <:+ w'.types)
    (hnumbered : w'.types.Numbered)
    (hdispatchers : ∀ (i : Nat) d, w.dispatchers[i]? = some d → w'.dispatchers[i]? = some d)
    (hinstalled : ∀ id d, w.dispatcherOf? id = some d → w'.dispatcherOf? id = some d) :
    w'.Provides p base interfaces properties t := by
  obtain ⟨hsubtype, d, hd, hrouting⟩ := h
  exact ⟨hsubtype.grown htypes hnumbered, d, hinstalled _ d hd, hdispatchers _ _ hrouting⟩

theorem Provides.later {p : PlatformId} {base t : HostType} {interfaces properties : List TypeId}
    (h : w.Provides p base interfaces properties t) (hlater : w.Later w') (hs : w.Sane) :
    w'.Provides p base interfaces properties t :=
  h.grown hlater.types (hlater.sane hs).numbered hlater.dispatchers hlater.installed

/-- What answers a request keeps answering it. -/
theorem Answers.grown {p : PlatformId} {key : CacheKey} {id : TypeId} (h : w.Answers p key id)
    (htypes : w.types <:+ w'.types) (hnumbered : w'.types.Numbered)
    (hdispatchers : ∀ (i : Nat) d, w.dispatchers[i]? = some d → w'.dispatchers[i]? = some d)
    (hinstalled : ∀ id d, w.dispatcherOf? id = some d → w'.dispatcherOf? id = some d) :
    w'.Answers p key id := by
  obtain ⟨base, interfaces, properties, loader, t, hkey, hid, hprovides⟩ := h
  exact ⟨base, interfaces, properties, loader, t, hkey, hid,
    hprovides.grown htypes hnumbered hdispatchers hinstalled⟩

theorem Answers.later {p : PlatformId} {key : CacheKey} {id : TypeId} (h : w.Answers p key id)
    (hlater : w.Later w') (hs : w.Sane) : w'.Answers p key id :=
  h.grown hlater.types (hlater.sane hs).numbered hlater.dispatchers hlater.installed

/-- A world stays sane while numbered types and right answers are added. -/
theorem Sane.grown (h : w.Sane) (htypes : w.types <:+ w'.types) (hnumbered : w'.types.Numbered)
    (hdispatchers : ∀ (i : Nat) d, w.dispatchers[i]? = some d → w'.dispatchers[i]? = some d)
    (hinstalled : ∀ id d, w.dispatcherOf? id = some d → w'.dispatcherOf? id = some d)
    (hscripts : w'.names.scripts = w.names.scripts) (hsize : w'.platforms.size = w.platforms.size)
    (hdispatcher : ∀ p, (w'.platform p).dispatcher = (w.platform p).dispatcher)
    (haccessors : ∀ p, (w'.platform p).accessors.Sound w.types)
    (hregistry : ∀ p key id, (key, some id) ∈ (w'.platform p).registry.entries →
      (key, some id) ∈ (w.platform p).registry.entries ∨ w'.Answers p key id) : w'.Sane where
  numbered := hnumbered
  start := h.start.trans htypes
  scripts n hn := by
    rw [hscripts] at hn
    exact (h.scripts n hn).mono htypes
  routing p hp := by
    rw [hdispatcher]
    exact hdispatchers _ _ (h.routing p (hsize ▸ hp))
  accessors p := by
    obtain ⟨new, hnew⟩ := htypes
    rw [← hnew]
    exact (haccessors p).append (hnew ▸ hnumbered)
  registry p key id hentry := by
    rcases hregistry p key id hentry with hentry | hanswers
    · exact (h.registry p key id hentry).grown htypes hnumbered hdispatchers hinstalled
    · exact hanswers

/-- Changing objects and script objects as they can change, and arrays, what is held, reports and numbers
at will, leaves a later world. -/
theorem Later.of_state (htypes : w'.types = w.types)
    (hobjects : ∀ (i : Nat) s, w.objects[i]? = some s → ∃ s', w'.objects[i]? = some s' ∧ s.Becomes s')
    (hinstances : ∀ (i : Nat) s, w.instances[i]? = some s →
      ∃ s', w'.instances[i]? = some s' ∧ s.Becomes s')
    (hdispatchers : w'.dispatchers = w.dispatchers) (hinstalled : w'.installed = w.installed)
    (hplatforms : w'.platforms = w.platforms) (hscripts : w'.names.scripts = w.names.scripts) :
    w.Later w' := by
  have hplatform (p : PlatformId) : w'.platform p = w.platform p := by
    rw [platform, platform, hplatforms]
  have hinstalled' (id : TypeId) (d : DispatcherId) (hd : w.dispatcherOf? id = some d) :
      w'.dispatcherOf? id = some d := by
    rw [dispatcherOf?, hinstalled]
    exact hd
  refine ⟨htypes ▸ List.suffix_rfl, hobjects, hinstances, fun i d hd => hdispatchers ▸ hd, hinstalled',
    hplatforms ▸ Nat.le_refl _, fun p => by rw [hplatform], fun p => by rw [hplatform], fun h => ?_⟩
  refine h.grown (htypes ▸ List.suffix_rfl) (htypes ▸ h.numbered) (fun i d hd => hdispatchers ▸ hd)
    hinstalled' hscripts (by rw [hplatforms]) (fun p => by rw [hplatform]) (fun p => ?_)
    fun p key id hentry => .inl ?_
  · rw [hplatform]
    exact h.accessors p
  · rw [hplatform] at hentry
    exact hentry

/-- The same for a world in which also accessors are remembered. -/
theorem Aside.later (h : w.Aside w') (hsize : w'.platforms.size = w.platforms.size) : w.Later w' where
  types := h.types ▸ List.suffix_rfl
  objects i s hs := ⟨s, h.objects ▸ hs, rfl, .refl _⟩
  instances i s hs := ⟨s, h.instances ▸ hs, rfl, rfl, rfl⟩
  dispatchers i d hd := h.dispatchers ▸ hd
  installed id d hd := (h.dispatcherOf? id).trans hd
  size := Nat.le_of_eq hsize.symm
  options p := by
    obtain ⟨cache, hcache, -⟩ := h.platforms p
    rw [hcache]
  constructing := h.constructing
  sane hs := by
    refine hs.grown (h.types ▸ List.suffix_rfl) (h.types ▸ hs.numbered)
      (fun i d hd => h.dispatchers ▸ hd) (fun id d hd => (h.dispatcherOf? id).trans hd)
      (by rw [h.names]) hsize (fun p => ?_) (fun p => ?_) fun p key id hentry => .inl ?_
    all_goals obtain ⟨cache, hcache, hsound⟩ := h.platforms p
    · rw [hcache]
    · rw [hcache]
      exact hsound (hs.accessors p)
    · rw [hcache] at hentry
      exact hentry

/-- Adding an object to those that are there. -/
theorem Later.push_object (w : World) (s : ObjectState) :
    w.Later { w with objects := w.objects.push s } :=
  .of_state rfl (fun i s' hs => ⟨s', by
    rw [Array.getElem?_push, if_neg (Nat.ne_of_lt (Array.getElem?_eq_some_iff.1 hs).1)]
    exact hs, rfl, .refl _⟩) (fun _ s hs => ⟨s, hs, rfl, rfl, rfl⟩) rfl rfl rfl rfl

/-- Changing an object as it can change. -/
theorem Later.modify_object (w : World) (i : Nat) {f : ObjectState → ObjectState}
    (h : ∀ s, w.objects[i]? = some s → s.Becomes (f s)) :
    w.Later { w with objects := w.objects.modify i f } := by
  refine .of_state rfl (fun j s hs => ?_) (fun _ s hs => ⟨s, hs, rfl, rfl, rfl⟩) rfl rfl rfl rfl
  rw [Array.getElem?_modify]
  by_cases hj : i = j
  · subst hj
    rw [if_pos rfl, hs]
    exact ⟨_, rfl, h s hs⟩
  · rw [if_neg hj]
    exact ⟨s, hs, rfl, .refl _⟩

/-- Adding a script object to those that are there. -/
theorem Later.push_instance (w : World) (s : Instance) :
    w.Later { w with instances := w.instances.push s } :=
  .of_state rfl (fun _ s hs => ⟨s, hs, rfl, .refl _⟩) (fun i s' hs => ⟨s', by
    rw [Array.getElem?_push, if_neg (Nat.ne_of_lt (Array.getElem?_eq_some_iff.1 hs).1)]
    exact hs, rfl, rfl, rfl⟩) rfl rfl rfl rfl

end World

/-! ## Computations that keep what is there -/

namespace Action

variable {α β : Type}

/-- Whether a computation leaves a later world of the one it starts in. -/
def KeepsAt (w : World) (x : Action α) : Prop := w.Later (x w).2

/-- Whether a computation leaves a later world. -/
def Keeps (x : Action α) : Prop := ∀ w, KeepsAt w x

theorem KeepsAt.pure {w : World} {a : α} : KeepsAt w (pure a) := .refl w

theorem KeepsAt.raise {w : World} {e : HostError} : KeepsAt w (raise e : Action α) := .refl w

theorem Keeps.pure {a : α} : Keeps (pure a) := fun _ => .pure

theorem Keeps.raise {e : HostError} : Keeps (raise e : Action α) := fun _ => .raise

theorem Keeps.get : Keeps (get : Action World) := fun w => World.Later.refl w

theorem KeepsAt.bind {w : World} {x : Action α} {f : α → Action β} (hx : KeepsAt w x)
    (hf : ∀ a, Keeps (f a)) : KeepsAt w (x >>= f) := by
  rw [KeepsAt] at hx ⊢
  rw [bind_apply]
  rcases hw : x w with ⟨_ | a, after⟩
  · rw [hw] at hx
    exact hx
  · rw [hw] at hx
    exact hx.trans (hf a after)

theorem Keeps.bind {x : Action α} {f : α → Action β} (hx : Keeps x) (hf : ∀ a, Keeps (f a)) :
    Keeps (x >>= f) := fun w => (hx w).bind hf

theorem KeepsAt.outcome {w : World} {x : Action α} (h : KeepsAt w x) : KeepsAt w (outcome x) := by
  rw [KeepsAt] at h ⊢
  rw [Action.outcome]
  rcases hx : x w with ⟨(_ | _) | a, after⟩
  all_goals
    rw [hx] at h
    exact h

theorem Keeps.outcome {x : Action α} (h : Keeps x) : Keeps (outcome x) := fun w => (h w).outcome

theorem Keeps.ofExcept {r : Except HostError α} : Keeps (ofExcept r) := by
  cases r with
  | error e => exact .raise
  | ok a => exact .pure

/-- A computation that looks at the world and then changes it depends on the world it looks at. -/
theorem Keeps.of_get {f : World → Action α} (h : ∀ w, KeepsAt w (f w)) :
    Keeps ((MonadState.get : Action World) >>= f) := by
  intro w
  rw [KeepsAt, bind_apply_ok (get_apply w)]
  exact h w

end Action

namespace World

open Interpose.Action (Keeps)

theorem keeps_newArray (items : Array Value) : Keeps (newArray items) :=
  fun w => Aside.later (.push w items) rfl

/-- What only changes arrays, what is held, reports, numbers and names leaves a later world. -/
theorem Later.of_rest {w w' : World} (htypes : w'.types = w.types) (hobjects : w'.objects = w.objects)
    (hinstances : w'.instances = w.instances) (hdispatchers : w'.dispatchers = w.dispatchers)
    (hinstalled : w'.installed = w.installed) (hplatforms : w'.platforms = w.platforms)
    (hscripts : w'.names.scripts = w.names.scripts) : w.Later w' :=
  .of_state htypes (fun _ s hs => ⟨s, hobjects ▸ hs, rfl, .refl _⟩)
    (fun _ s hs => ⟨s, hinstances ▸ hs, rfl, rfl, rfl⟩) hdispatchers hinstalled hplatforms hscripts

/-- What is held is all that changes. -/
theorem Later.of_held (w : World) (held : List Holder) : w.Later { w with held := held } :=
  .of_rest rfl rfl rfl rfl rfl rfl rfl

theorem keeps_storeItem (id : ArrayId) (i : Nat) (v : Value) : Keeps (storeItem id i v) :=
  fun _ => Later.of_rest rfl rfl rfl rfl rfl rfl rfl

theorem keeps_issue : Keeps issue := fun _ => Later.of_rest rfl rfl rfl rfl rfl rfl rfl

theorem keeps_report (text : String) : Keeps (report text) :=
  fun _ => Later.of_rest rfl rfl rfl rfl rfl rfl rfl

theorem keeps_keepInstance (name : String) (id : InstanceId) : Keeps (keepInstance name id) :=
  fun _ => Later.of_rest rfl rfl rfl rfl rfl rfl rfl

theorem keeps_allocate (cls : TypeId) : Keeps (allocate cls) := by
  refine .of_get fun w => ?_
  split
  · exact .raise
  · split
    · exact .raise
    · exact Later.push_object w _

theorem keeps_setField (o : ObjectRef) (name : String) (v : Value) : Keeps (setField o name v) := by
  refine .of_get fun w => ?_
  split
  · exact .raise
  · split
    · exact Later.modify_object w _ fun s _ => ⟨rfl, .refl _⟩
    · exact .raise

theorem keeps_bind (o : ObjectRef) (id : InstanceId) : Keeps (bind o id) := by
  refine .of_get fun w => ?_
  split
  · exact .pure
  · rename_i hfree
    refine Later.modify_object w _ fun s hs => ⟨rfl, .inl ?_⟩
    simp only [isBound, hs] at hfree
    cases hbinding : s.binding with
    | unbound => rfl
    | bound _ | lapsed =>
        rw [hbinding] at hfree
        exact absurd rfl hfree

theorem keeps_boundTo (o : ObjectRef) : Keeps (boundTo o) := by
  refine .of_get fun w => ?_
  split
  · exact .pure
  · split
    · exact Later.modify_object w _ fun s _ => ⟨rfl, .inr (.inr rfl)⟩
    · exact .pure

theorem keeps_addInstance (i : Instance) : Keeps (addInstance i) := fun w => Later.push_instance w i

theorem keeps_setProperty (id : InstanceId) (name : String) (v : Value) :
    Keeps (setProperty id name v) := by
  refine .of_get fun w => ?_
  split
  · exact .raise
  · split
    · exact keeps_setField _ _ _ w
    · refine Later.of_state rfl (fun _ s hs => ⟨s, hs, rfl, .refl _⟩) (fun j s hs => ?_) rfl rfl rfl rfl
      change ∃ s', (w.instances.modify id.index _)[j]? = some s' ∧ _
      rw [Array.getElem?_modify, hs]
      split
      · exact ⟨_, rfl, rfl, rfl, rfl⟩
      · exact ⟨s, rfl, rfl, rfl, rfl⟩

/-- What is kept under a name is found without changing anything. -/
theorem kept_eq_ok {α : Type} {sort name : String} {names : Directory → Names α} {w after : World} {a : α}
    (h : kept sort name names w = (.ok a, after)) : after = w ∧ ∃ n ∈ names w.names, n.2 = a := by
  rw [kept, Action.bind_apply_ok (Action.get_apply w)] at h
  cases hfound : (names w.names).get? name with
  | none =>
      simp only [hfound] at h
      cases h
  | some b =>
      simp only [hfound] at h
      cases h
      obtain ⟨n, hn, rfl⟩ := Option.map_eq_some_iff.1 hfound
      exact ⟨rfl, n, List.mem_of_find?_eq_some hn, rfl⟩

end World

end Interpose
