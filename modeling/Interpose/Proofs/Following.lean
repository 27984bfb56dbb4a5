import Interpose.Dispatch.AccessorCache
import Interpose.Proofs.Definitions

/-!
# Calls that come to others

A call of a generated operation does work of its own: it holds things, packs arguments and looks
accessors up. What is left of it is what another computation does, in a world that differs in nothing
but that work.
-/

namespace Interpose

/-! ## Remembered accessors -/

namespace TypeTable

/-- An accessor is looked up by the slot of its operation. -/
theorem findAccessor_congr {types : TypeTable} {real : TypeId} {a b : Method}
    (h : a.slot = b.slot) : types.findAccessor real a = types.findAccessor real b := by
  obtain ⟨hname, hreturns, hparams⟩ := Slot.mk.inj h
  rw [findAccessor, findAccessor, hname, hreturns, hparams]

/-- An accessor is found by its name and parameters, among the operations of the class and its superclasses. -/
theorem find?_of_findAccessor {types : TypeTable} {real : TypeId} {op m : Method}
    (h : types.findAccessor real op = .ok m) :
    ((types.lineage real).flatMap (·.methods)).find? (fun k =>
      k.name == Naming.accessor op.name op.returns && k.params == op.params) = some m := by
  rw [findAccessor] at h
  split at h
  · rename_i k hk
    cases h
    exact hk
  · cases h

end TypeTable

namespace AccessorCache

variable {types : TypeTable} {real : TypeId} {op : Method} {cache : AccessorCache}

/-- Whether what is remembered for a slot is what looking it up finds. -/
def Sound (types : TypeTable) (cache : AccessorCache) : Prop :=
  ∀ e ∈ cache.entries, e.2.operation.slot = e.1.2 ∧
    types.findAccessor e.1.1 e.2.operation = .ok e.2.accessor

/-- Nothing is remembered at first. -/
theorem sound_nil (resolutions : Nat) : Sound types ⟨[], resolutions⟩ := by
  intro e he
  cases he

/-- What is remembered for the slot of an operation is its accessor. -/
theorem findAccessor_of_get? (hcache : cache.Sound types) {known : ResolvedAccessor}
    (h : cache.get? real op.slot = some known) : types.findAccessor real op = .ok known.accessor := by
  rw [get?, Option.map_eq_some_iff] at h
  obtain ⟨e, he, rfl⟩ := h
  have hkey := List.find?_some he
  rw [beq_iff_eq] at hkey
  obtain ⟨hslot, hfound⟩ := hcache e (List.mem_of_find?_eq_some he)
  rw [hkey] at hslot hfound
  rw [← hfound, TypeTable.findAccessor_congr hslot]

/-- Remembers an accessor that was looked up with success. -/
def add (cache : AccessorCache) (real : TypeId) (found : ResolvedAccessor) : AccessorCache :=
  ⟨((real, found.operation.slot), found) :: cache.entries, cache.resolutions + 1⟩

theorem Sound.add {m : Method} (hcache : cache.Sound types) (hfound : types.findAccessor real op = .ok m) :
    (cache.add real ⟨op, m⟩).Sound types :=
  List.forall_mem_cons.2 ⟨⟨rfl, hfound⟩, hcache⟩

/-- An accessor is remembered, or it is looked up without success, or with success and remembered then. -/
theorem resolve_cases (types : TypeTable) (real : TypeId) (op : Method) (cache : AccessorCache) :
    (∃ known, cache.get? real op.slot = some known ∧ cache.resolve types real op = (.ok known, cache)) ∨
    (∃ e, types.findAccessor real op = .error e ∧ cache.resolve types real op = (.error e, cache)) ∨
    ∃ m, cache.get? real op.slot = none ∧ types.findAccessor real op = .ok m ∧
      cache.resolve types real op = (.ok ⟨op, m⟩, cache.add real ⟨op, m⟩) := by
  rw [resolve]
  cases hknown : cache.get? real op.slot with
  | some known => exact .inl ⟨known, rfl, rfl⟩
  | none =>
      cases hfound : types.findAccessor real op with
      | error e => exact .inr (.inl ⟨e, rfl, rfl⟩)
      | ok m => exact .inr (.inr ⟨m, rfl, rfl, rfl⟩)

/-- Looking an accessor up remembers nothing wrong. -/
theorem sound_resolve (hcache : cache.Sound types) : (resolve types real op cache).2.Sound types := by
  rcases resolve_cases types real op cache with ⟨known, -, heq⟩ | ⟨e, -, heq⟩ | ⟨m, -, hfound, heq⟩
  all_goals rw [heq]
  · exact hcache
  · exact hcache
  · exact hcache.add hfound

end AccessorCache

/-! ## What a platform remembers -/

/-- Changing the state of a platform changes no other one. -/
theorem World.platform_modify (w : World) (p q : PlatformId) (f : Platform → Platform) :
    ({ w with platforms := w.platforms.modify p.index f } : World).platform q =
      if q = p ∧ p.index < w.platforms.size then f (w.platform q) else w.platform q := by
  rw [World.platform, World.platform, Array.getElem?_modify]
  by_cases hq : q = p
  · subst hq
    rw [if_pos rfl]
    by_cases hlt : q.index < w.platforms.size
    · rw [if_pos ⟨rfl, hlt⟩, Array.getElem?_eq_getElem hlt]
      rfl
    · rw [if_neg fun h => hlt h.2, Array.getElem?_eq_none (Nat.le_of_not_lt hlt)]
      rfl
  · have hne : p.index ≠ q.index := by
      intro h
      cases p
      cases q
      exact hq (congrArg PlatformId.mk h.symm)
    rw [if_neg hne, if_neg fun h => hq h.1]

/-- Putting back what a platform has changes nothing. -/
theorem World.modify_self (w : World) (p : PlatformId) {f : Platform → Platform}
    (hf : f (w.platform p) = w.platform p) :
    { w with platforms := w.platforms.modify p.index f } = w := by
  have hsame : w.platforms.modify p.index f = w.platforms := by
    apply Array.ext_getElem?
    intro i
    rw [Array.getElem?_modify]
    by_cases hi : p.index = i
    · rw [if_pos hi, ← hi]
      rw [platform] at hf
      cases hstate : w.platforms[p.index]? with
      | none => rfl
      | some s =>
          rw [hstate] at hf
          exact congrArg some hf
    · rw [if_neg hi]
  rw [hsame]

/-- A world in which a platform remembers other accessors. -/
def World.recalling (w : World) (p : PlatformId) (cache : AccessorCache) : World :=
  { w with platforms := w.platforms.modify p.index fun s => { s with accessors := cache } }

theorem World.recalling_same (w : World) (p : PlatformId) : w.recalling p (w.platform p).accessors = w :=
  w.modify_self p rfl

theorem World.accessors_recalling (w : World) (p q : PlatformId) (cache : AccessorCache) :
    ((w.recalling p cache).platform q).accessors =
      if q = p ∧ p.index < w.platforms.size then cache else (w.platform q).accessors := by
  rw [recalling, platform_modify]
  split <;> rfl

/-! ## Worlds that differ in the work of a call -/

/-- Whether a world is another one in which more is held, arrays were added and further accessors are
remembered. -/
structure World.Aside (w w' : World) : Prop where
  types : w'.types = w.types
  objects : w'.objects = w.objects
  arrays : ∀ (i : Nat) items, w.arrays[i]? = some items → w'.arrays[i]? = some items
  instances : w'.instances = w.instances
  dispatchers : w'.dispatchers = w.dispatchers
  installed : w'.installed = w.installed
  platforms : ∀ p, ∃ cache, w'.platform p = { w.platform p with accessors := cache } ∧
    ((w.platform p).accessors.Sound w.types → cache.Sound w.types)
  held : w.held <:+ w'.held
  issued : w'.issued = w.issued
  log : w'.log = w.log
  names : w'.names = w.names

namespace World.Aside

variable {w w' w'' : World}

theorem refl (w : World) : w.Aside w :=
  ⟨rfl, rfl, fun _ _ h => h, rfl, rfl, rfl, fun _ => ⟨_, rfl, id⟩, List.suffix_rfl, rfl, rfl, rfl⟩

theorem trans (h : w.Aside w') (h' : w'.Aside w'') : w.Aside w'' where
  types := h'.types.trans h.types
  objects := h'.objects.trans h.objects
  arrays i items hi := h'.arrays i items (h.arrays i items hi)
  instances := h'.instances.trans h.instances
  dispatchers := h'.dispatchers.trans h.dispatchers
  installed := h'.installed.trans h.installed
  platforms p := by
    obtain ⟨cache, hcache, hsound⟩ := h.platforms p
    obtain ⟨cache', hcache', hsound'⟩ := h'.platforms p
    rw [hcache, h.types] at hsound'
    refine ⟨cache', ?_, fun hs => hsound' (hsound hs)⟩
    rw [hcache', hcache]
  held := h.held.trans h'.held
  issued := h'.issued.trans h.issued
  log := h'.log.trans h.log
  names := h'.names.trans h.names

theorem holding (w : World) (hs : List Holder) : w.Aside { w with held := hs ++ w.held } :=
  { refl w with held := List.suffix_append hs w.held }

theorem push (w : World) (items : Array Value) : w.Aside { w with arrays := w.arrays.push items } :=
  { refl w with
    arrays := fun i _ h => by
      have hlt := (Array.getElem?_eq_some_iff.1 h).1
      rw [Array.getElem?_push, if_neg (Nat.ne_of_lt hlt)]
      exact h }

/-- Remembering what looking up finds leaves everything else alone. -/
theorem remember (w : World) (p : PlatformId) {cache : AccessorCache}
    (hsound : (w.platform p).accessors.Sound w.types → cache.Sound w.types) :
    w.Aside (w.recalling p cache) :=
  { refl w with
    platforms := fun q => by
      rw [recalling, platform_modify]
      split
      case isTrue h => exact ⟨cache, rfl, h.1 ▸ hsound⟩
      case isFalse => exact ⟨_, rfl, id⟩ }

/-- What is under construction does not change. -/
theorem constructing (h : w.Aside w') (p : PlatformId) :
    (w'.platform p).constructing = (w.platform p).constructing := by
  obtain ⟨cache, hcache, -⟩ := h.platforms p
  rw [hcache]

theorem sound (h : w.Aside w') {p : PlatformId} (hw : (w.platform p).accessors.Sound w.types) :
    (w'.platform p).accessors.Sound w'.types := by
  obtain ⟨cache, hcache, hsound⟩ := h.platforms p
  rw [hcache, h.types]
  exact hsound hw

/-- Which dispatcher a type has does not change. -/
theorem dispatcherOf? (h : w.Aside w') (id : TypeId) : w'.dispatcherOf? id = w.dispatcherOf? id := by
  rw [World.dispatcherOf?, World.dispatcherOf?, h.installed]

end World.Aside

/-! ## Bindings that last -/

namespace World

variable {w w' : World} {o : ObjectRef} {id : InstanceId}

/-- Whether an object is bound to a script object that stays alive, however much more is held. -/
def Binds (w : World) (o : ObjectRef) (id : InstanceId) : Prop :=
  ∀ w', w.Aside w' → w'.bound? o = some id

theorem Binds.aside (h : w.Binds o id) (haside : w.Aside w') : w'.Binds o id :=
  fun w'' haside' => h w'' (haside.trans haside')

/-- What a platform holds does not depend on the accessors that it remembers. -/
theorem Aside.heldByNames (h : w.Aside w') : w'.heldByNames = w.heldByNames := by
  have hplatforms (p : PlatformId) : (w'.platform p).registry = (w.platform p).registry ∧
      (w'.platform p).unmanaged = (w.platform p).unmanaged := by
    obtain ⟨cache, hcache, -⟩ := h.platforms p
    rw [hcache]
    exact ⟨rfl, rfl⟩
  simp only [World.heldByNames, h.names, hplatforms]

/-- A binding to what a name or a computation in progress holds lasts. -/
theorem binds_of_mem_roots {state : ObjectState} (hstate : w.objects[o.index]? = some state)
    (hbinding : state.binding = .bound id) (hroot : .instance id ∈ w.roots) : w.Binds o id := by
  intro w' h
  have hroot' : .instance id ∈ w'.roots := by
    rw [roots, h.heldByNames]
    rcases List.mem_append.1 hroot with hheld | hnamed
    · exact List.mem_append_left _ (h.held.subset hheld)
    · exact List.mem_append_right _ hnamed
  rw [bound?, h.objects, hstate]
  simp only [hbinding, Binding.target?, Option.filter_some, isAlive_of_mem_roots hroot', if_true]

/-- Looking up what an object is bound to changes nothing while that is alive. -/
theorem Binds.boundTo_apply (h : w.Binds o id) : boundTo o w = (.ok (some id), w) := by
  rw [boundTo, Action.bind_apply_ok (Action.get_apply w), h w (.refl w)]
  rfl

end World

/-! ## Coming to another computation -/

namespace Action

variable {x y z : Action Value} {w w' : World} {f g : TypeTable → Value → Except HostError Value}

/-- Whether a computation comes to another one: it does what that one does in a world aside, turns the
value that it ends with into another, and lets go of what it held. -/
def ComesTo (w : World) (x y : Action Value) (f : TypeTable → Value → Except HostError Value) : Prop :=
  ∃ w', w.Aside w' ∧ x w = match y w' with
    | (.ok v, after) => ofExcept (f after.types v) { after with held := w.held }
    | (.error e, after) => (.error e, { after with held := w.held })

/-- A computation that lets go of all that it holds comes to itself. -/
theorem ComesTo.refl (h : (x w).2.held = w.held) : ComesTo w x x fun _ v => .ok v := by
  refine ⟨w, .refl w, ?_⟩
  rw [← h]
  rcases x w with ⟨_ | v, after⟩ <;> rfl

/-- What is done first may leave the world aside. -/
theorem ComesTo.after {α : Type} {first : Action α} {next : α → Action Value} {a : α}
    (hfirst : first w = (.ok a, w')) (haside : w.Aside w') (hheld : w'.held = w.held)
    (h : ComesTo w' (next a) y f) : ComesTo w (first >>= next) y f := by
  obtain ⟨w'', haside', hx⟩ := h
  refine ⟨w'', haside.trans haside', ?_⟩
  rw [bind_apply_ok hfirst, hx, hheld]

theorem ComesTo.holding {hs : List Holder} (h : ComesTo { w with held := hs ++ w.held } x y f) :
    ComesTo w (World.holding hs x) y f := by
  obtain ⟨w', haside, hx⟩ := h
  refine ⟨w', (World.Aside.holding w hs).trans haside, ?_⟩
  rw [World.holding, finally_, hx]
  rcases y w' with ⟨_ | v, after⟩
  · rfl
  · dsimp only
    cases f after.types v <;> rfl

/-- What is done last with the value of a computation is done with the value it comes to. -/
theorem ComesTo.convert (h : ComesTo w x y f) :
    ComesTo w (x >>= fun v => withTypes fun types => g types v) y
      fun types v => f types v >>= g types := by
  obtain ⟨w', haside, hx⟩ := h
  refine ⟨w', haside, ?_⟩
  rw [bind_apply, hx]
  rcases y w' with ⟨_ | v, after⟩
  · rfl
  · dsimp only
    cases f after.types v <;> rfl

theorem ComesTo.map (h : ComesTo w x y f) (k : Value → Value) :
    ComesTo w (x >>= fun v => pure (k v)) y fun types v => (f types v).map k :=
  h.convert (g := fun _ v => .ok (k v))

/-- Only what is done with the values that a computation can end with counts. -/
theorem ComesTo.congr (h : ComesTo w x y f)
    (hvalues : ∀ w' v after, w.Aside w' → y w' = (.ok v, after) → f after.types v = g after.types v) :
    ComesTo w x y g := by
  obtain ⟨w', haside, hx⟩ := h
  refine ⟨w', haside, ?_⟩
  rw [hx]
  rcases hy : y w' with ⟨_ | v, after⟩
  · rfl
  · dsimp only
    rw [hvalues w' v after haside hy]

/-- Coming to a computation that comes to another one. -/
theorem ComesTo.of_eq (hx : x w = y w) (h : ComesTo w y z f) : ComesTo w x z f := by
  obtain ⟨w', haside, hy⟩ := h
  exact ⟨w', haside, hx.trans hy⟩

/-- What a computation ends with is told by the one that it comes to. -/
theorem ComesTo.fst_eq_ok {u v : Value} (h : ComesTo w x y f)
    (hy : ∀ w', w.Aside w' → (y w').1 = .ok v) (hf : ∀ types, f types v = .ok u) :
    (x w).1 = .ok u := by
  obtain ⟨w', haside, hx⟩ := h
  have hv := hy w' haside
  rw [hx]
  rcases hresult : y w' with ⟨_ | v', after⟩
  · rw [hresult] at hv
    cases hv
  · rw [hresult] at hv
    cases hv
    dsimp only
    rw [hf]
    rfl

/-- A computation fails if the one that it comes to fails. -/
theorem ComesTo.fst_eq_error {e : Halt} (h : ComesTo w x y f)
    (hy : ∀ w', w.Aside w' → (y w').1 = .error e) : (x w).1 = .error e := by
  obtain ⟨w', haside, hx⟩ := h
  have he := hy w' haside
  rw [hx]
  rcases hresult : y w' with ⟨e' | v, after⟩
  · rw [hresult] at he
    exact he
  · rw [hresult] at he
    cases he

end Action

namespace Runner

variable {w : World} {p : PlatformId} {real : TypeId} {op : Method}

theorem resolve_eq (p : PlatformId) (real : TypeId) (op : Method) (w : World) :
    resolve p real op w = (Action.ofExcept ((w.platform p).accessors.resolve w.types real op).1 : Action _)
      (w.recalling p ((w.platform p).accessors.resolve w.types real op).2) := rfl

/-- A platform that looks for an accessor changes only if it finds one that it does not remember. -/
theorem resolve_cases (p : PlatformId) (real : TypeId) (op : Method) (w : World) :
    (∃ known, (w.platform p).accessors.get? real op.slot = some known ∧ resolve p real op w = (.ok known, w)) ∨
    (∃ e, w.types.findAccessor real op = .error e ∧ resolve p real op w = (.error (.raised e), w)) ∨
    ∃ m, (w.platform p).accessors.get? real op.slot = none ∧ w.types.findAccessor real op = .ok m ∧
      resolve p real op w = (.ok ⟨op, m⟩, w.recalling p ((w.platform p).accessors.add real ⟨op, m⟩)) := by
  rw [resolve_eq]
  rcases (w.platform p).accessors.resolve_cases w.types real op with
    ⟨known, hknown, heq⟩ | ⟨e, hnone, heq⟩ | ⟨m, hnew, hfound, heq⟩
  all_goals rw [heq]
  · rw [World.recalling_same]
    exact .inl ⟨known, hknown, rfl⟩
  · rw [World.recalling_same]
    exact .inr (.inl ⟨e, hnone, rfl⟩)
  · exact .inr (.inr ⟨m, hnew, hfound, rfl⟩)

variable (hsound : (w.platform p).accessors.Sound w.types)
include hsound

/-- An accessor is found as it is found afresh, and what is remembered of that stays right. -/
theorem resolve_apply {m : Method} (hfound : w.types.findAccessor real op = .ok m) :
    ∃ a w', resolve p real op w = (.ok a, w') ∧ a.accessor = m ∧ w.Aside w' ∧ w'.held = w.held := by
  rcases resolve_cases p real op w with ⟨known, hknown, heq⟩ | ⟨e, hnone, -⟩ | ⟨m', -, hfound', heq⟩
  · cases hfound.symm.trans (AccessorCache.findAccessor_of_get? hsound hknown)
    exact ⟨known, w, heq, rfl, .refl w, rfl⟩
  · cases hfound.symm.trans hnone
  · cases hfound.symm.trans hfound'
    exact ⟨_, _, heq, rfl, .remember w p fun hs => hs.add hfound, rfl⟩

/-- Where no accessor is found, nothing that is remembered is one. -/
theorem resolve_of_error {e : HostError} (hnone : w.types.findAccessor real op = .error e) :
    resolve p real op w = (.error (.raised e), w) := by
  rcases resolve_cases p real op w with ⟨known, hknown, -⟩ | ⟨e', hnone', heq⟩ | ⟨m, -, hfound, -⟩
  · cases hnone.symm.trans (AccessorCache.findAccessor_of_get? hsound hknown)
  · cases hnone.symm.trans hnone'
    exact heq
  · cases hnone.symm.trans hfound

end Runner

end Interpose
