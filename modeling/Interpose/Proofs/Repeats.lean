import Mathlib.Data.Finset.Card
import Interpose.Proofs.Registries

/-!
# Requests one after another

Whatever is requested from a platform in whatever order, requests are answered with one subtype exactly if they have
one key, and the platform counts the keys that it has subtypes of. This is what each request preserves. A request that
fails may leave a layer behind, but no other request is answered differently for it.
-/

namespace Interpose

/-- A request for a subtype. -/
structure SubtypeRequest where
  base : TypeId
  interfaces : List TypeId
  properties : List TypeId
  loader : Loader

namespace SubtypeRequest

/-- The key of a request. -/
def key (r : SubtypeRequest) : CacheKey := CacheKey.of r.base r.interfaces r.properties r.loader

/-- Whether the types that a request names are in a table. -/
def Declared (types : TypeTable) (r : SubtypeRequest) : Prop :=
  ∀ i ∈ r.base :: (r.interfaces ++ r.properties), i.index < types.length

instance (types : TypeTable) (r : SubtypeRequest) : Decidable (r.Declared types) :=
  inferInstanceAs (Decidable (∀ i ∈ r.base :: (r.interfaces ++ r.properties), i.index < types.length))

theorem Declared.mono {types types' : TypeTable} {r : SubtypeRequest} (h : r.Declared types)
    (hgrown : types <:+ types') : r.Declared types' :=
  fun i hi => Nat.lt_of_lt_of_le (h i hi) hgrown.length_le

/-- The answer of a platform to a request. -/
def answer (r : SubtypeRequest) (p : PlatformId) (w : World) : Except PlatformError TypeId × World :=
  w.createExtensionType p r.base r.interfaces r.properties r.loader

/-- Whether two requests are for the same base, the same sets of interfaces and the same loader. -/
def Same (a b : SubtypeRequest) : Prop :=
  a.base = b.base ∧ (∀ i, i ∈ a.interfaces ↔ i ∈ b.interfaces) ∧ (∀ i, i ∈ a.properties ↔ i ∈ b.properties) ∧
    a.loader.id = b.loader.id

theorem key_eq_iff {a b : SubtypeRequest} : a.key = b.key ↔ a.Same b := CacheKey.of_eq_iff

end SubtypeRequest

/-- Requests that were made, each with how it was answered, the latest first. -/
abbrev RequestLog := List (SubtypeRequest × Except PlatformError TypeId)

namespace RequestLog

/-- The keys of the requests that succeeded. -/
def keys (log : RequestLog) : Finset CacheKey := ((log.filter (·.2.isOk)).map (·.1.key)).toFinset

variable {log : RequestLog} {r : SubtypeRequest} {key : CacheKey} {id : TypeId} {fault : PlatformError}

theorem mem_keys : key ∈ log.keys ↔ ∃ r id, (r, .ok id) ∈ log ∧ r.key = key := by
  rw [keys, List.mem_toFinset, List.mem_map]
  constructor
  · rintro ⟨⟨r, _ | id⟩, hr, rfl⟩
    · cases (List.mem_filter.1 hr).2
    · exact ⟨r, id, (List.mem_filter.1 hr).1, rfl⟩
  · rintro ⟨r, id, hr, rfl⟩
    exact ⟨_, List.mem_filter.2 ⟨hr, rfl⟩, rfl⟩

theorem keys_cons_error (log : RequestLog) : keys ((r, .error fault) :: log) = log.keys := rfl

theorem keys_cons_ok (log : RequestLog) : keys ((r, .ok id) :: log) = insert r.key log.keys := List.toFinset_cons

end RequestLog

/-- Whether a platform was asked for subtypes like that from one world to another. Between requests anything may have
happened that leaves the registry of the platform as it is. -/
inductive World.Asked (p : PlatformId) (w : World) : RequestLog → World → Prop
  | start : Asked p w [] w
  | request {log : RequestLog} {w' : World} (before : Asked p w log w') (r : SubtypeRequest)
      (declared : r.Declared w'.types) : Asked p w ((r, (r.answer p w').1) :: log) (r.answer p w').2
  | meanwhile {log : RequestLog} {w' w'' : World} (before : Asked p w log w') (later : w'.Later w'')
      (known : w'.SetsKnown → w''.SetsKnown) (same : (w''.platform p).registry = (w'.platform p).registry) :
      Asked p w log w''

/-! ## What a registry records -/

/-- Whether a registry has the subtypes of the requests that succeeded, and counts their keys. -/
structure Registry.Records (r : Registry) (log : RequestLog) : Prop where
  get?_iff : ∀ key id, r.get? key = some id ↔ ∃ a, (a, .ok id) ∈ log ∧ a.key = key
  generations : r.generations = log.keys.card

namespace Registry.Records

variable {r r' : Registry} {log : RequestLog} {a : SubtypeRequest} {id : TypeId}

theorem nil : ({} : Registry).Records [] :=
  ⟨fun _ _ => ⟨nofun, fun ⟨_, ha, _⟩ => absurd ha List.not_mem_nil⟩, rfl⟩

/-- A request that fails is not recorded. -/
theorem failed (h : r.Records log) (hsame : ∀ key, r'.get? key = r.get? key)
    (hcount : r'.generations = r.generations) (a : SubtypeRequest) (fault : PlatformError) :
    r'.Records ((a, .error fault) :: log) := by
  refine ⟨fun key id => ?_, by rw [hcount, RequestLog.keys_cons_error, h.generations]⟩
  rw [hsame, h.get?_iff]
  simp

/-- A request that is answered with what is known is recorded already. -/
theorem known (h : r.Records log) (hget : r.get? a.key = some id) : r.Records ((a, .ok id) :: log) := by
  obtain ⟨b, hb, hkey⟩ := (h.get?_iff _ _).1 hget
  refine ⟨fun key k => ?_, ?_⟩
  · rw [h.get?_iff]
    constructor
    · rintro ⟨c, hc, hkey⟩
      exact ⟨c, List.mem_cons_of_mem _ hc, hkey⟩
    · rintro ⟨c, hc, rfl⟩
      rcases List.mem_cons.1 hc with hc | hc
      · cases hc
        exact ⟨b, hb, hkey⟩
      · exact ⟨c, hc, rfl⟩
  · rw [RequestLog.keys_cons_ok, Finset.insert_eq_of_mem (RequestLog.mem_keys.2 ⟨b, id, hb, hkey⟩),
      h.generations]

/-- A request that is answered with what is generated is recorded with it. -/
theorem generated (h : r.Records log) (hnone : r.get? a.key = none) (id : TypeId) :
    (r.generated a.key id).Records ((a, .ok id) :: log) := by
  have hnew (b : SubtypeRequest) (k : TypeId) (hb : (b, .ok k) ∈ log) : b.key ≠ a.key := by
    intro hkey
    cases hnone.symm.trans ((h.get?_iff _ _).2 ⟨b, hb, hkey⟩)
  refine ⟨fun key k => ?_, ?_⟩
  · change (Registry.put _ a.key (some id)).get? key = some k ↔ _
    rw [get?_put]
    constructor
    · intro hk
      split at hk
      · rename_i heq
        cases hk
        exact ⟨a, List.mem_cons_self, heq.symm⟩
      · obtain ⟨b, hb, hkey⟩ := (h.get?_iff key k).1 hk
        exact ⟨b, List.mem_cons_of_mem _ hb, hkey⟩
    · rintro ⟨b, hb, rfl⟩
      rcases List.mem_cons.1 hb with hb | hb
      · cases hb
        exact if_pos rfl
      · rw [if_neg (hnew b k hb)]
        exact (h.get?_iff _ _).2 ⟨b, hb, rfl⟩
  · have hkeys : a.key ∉ log.keys := by
      intro hkey
      obtain ⟨b, k, hb, hkey⟩ := RequestLog.mem_keys.1 hkey
      exact hnew b k hb hkey
    rw [RequestLog.keys_cons_ok, Finset.card_insert_of_notMem hkeys, ← h.generations]
    rfl

end Registry.Records

/-! ## What a platform remembers -/

variable {w w' w'' : World} {p : PlatformId} {log : RequestLog} {r a b : SubtypeRequest} {id : TypeId}

/-- Whether a world is sane, and a platform remembers requests rightly. -/
structure World.Remembers (w : World) (p : PlatformId) (log : RequestLog) : Prop where
  sane : w.Sane
  known : w.SetsKnown
  size : p.index < w.platforms.size
  sound : (w.platform p).registry.Sound w.types
  records : (w.platform p).registry.Records log

namespace World.Remembers

/-- A platform that was not asked remembers nothing. -/
theorem start (hs : w.Sane) (hset : w.SetsKnown) (hp : p.index < w.platforms.size)
    (hempty : (w.platform p).registry = {}) : w.Remembers p [] :=
  ⟨hs, hset, hp, hempty ▸ .nil _, hempty ▸ .nil⟩

/-- A platform remembers the same in a later world in which it has the same registry. -/
theorem later (h : w.Remembers p log) (hlater : w.Later w') (hset : w'.SetsKnown)
    (hsame : (w'.platform p).registry = (w.platform p).registry) : w'.Remembers p log := by
  obtain ⟨new, hnew⟩ := hlater.types
  have hsane := hlater.sane h.sane
  refine ⟨hsane, hset, Nat.lt_of_lt_of_le h.size hlater.size, ?_, hsame ▸ h.records⟩
  rw [← hnew]
  exact h.sound.grown (hnew ▸ hsane.numbered) fun key => by rw [hsame]

/-- After a request a platform remembers it as well. -/
theorem request (h : w.Remembers p log) (hr : r.Declared w.types) :
    (r.answer p w).2.Remembers p ((r, (r.answer p w).1) :: log) := by
  obtain ⟨hlater, -⟩ := World.later_createExtensionType (w := w) p r.loader fun _ => hr
  have hknown := h.known.createExtensionType p r.base r.interfaces r.properties r.loader
  have hsize := World.size_createExtensionType p r.base r.interfaces r.properties r.loader w
  refine ⟨hlater.sane h.sane, hknown, hsize ▸ h.size, World.sound_createExtensionType h.sane h.size h.sound hr, ?_⟩
  rcases hanswer : r.answer p w with ⟨result, w'⟩
  rcases World.createExtensionType_cases h.size h.sound hanswer with
    ⟨fault, rfl, hcount, hsame⟩ | ⟨id, rfl, ⟨hget, hsame⟩ | ⟨hget, hgenerated, -⟩⟩
  · exact h.records.failed hsame hcount r fault
  · exact hsame ▸ h.records.known hget
  · exact hgenerated ▸ h.records.generated hget id

/-- What a platform remembers is preserved by whatever is requested. -/
theorem of_asked (h : w.Remembers p []) (hasked : w.Asked p log w') : w'.Remembers p log := by
  induction hasked with
  | start => exact h
  | request _ r declared ih => exact ih.request declared
  | meanwhile _ later known same ih => exact ih.later later (known ih.known) same

/-- A request for what a request succeeded for before is answered alike. -/
theorem answer_of_same (h : w.Remembers p log) (ha : (a, .ok id) ∈ log) (hsame : a.Same b) :
    (b.answer p w).1 = .ok id := by
  refine World.createExtensionType_of_get? h.sound ((h.records.get?_iff _ _).2 ⟨a, ha, ?_⟩)
  exact SubtypeRequest.key_eq_iff.2 hsame

/-- A request is granted after one that failed exactly if it is granted before. -/
theorem exists_answer_iff_of_failed {fault : PlatformError} (h : w.Remembers p log) (hr : r.Declared w.types)
    (hfailed : r.answer p w = (.error fault, w')) (hb : b.Declared w.types) :
    (∃ id, (b.answer p w').1 = .ok id) ↔ ∃ id, (b.answer p w).1 = .ok id := by
  have hafter := h.request hr
  obtain ⟨hlater, -⟩ := World.later_createExtensionType (w := w) p r.loader fun _ => hr
  rw [← SubtypeRequest.answer, hfailed] at hlater
  rw [hfailed] at hafter
  have hget (key : CacheKey) : (w'.platform p).registry.get? key = (w.platform p).registry.get? key := by
    rcases World.createExtensionType_cases h.size h.sound hfailed with ⟨_, -, -, hsame⟩ | ⟨_, hok, -⟩
    · exact hsame key
    · cases hok
  constructor
  · rintro ⟨id, hid⟩
    exact World.exists_answer_of_older hafter.sane h.sane h.known hafter.size hafter.sound h.sound
      (fun key => (hget key).symm) (hlater.options p).symm hlater.types List.suffix_rfl h.sane.start hb
      (Prod.ext hid rfl : b.answer p w' = (.ok id, (b.answer p w').2))
  · rintro ⟨id, hid⟩
    exact World.exists_answer_of_older h.sane hafter.sane hafter.known h.size h.sound hafter.sound hget
      (hlater.options p) List.suffix_rfl hlater.types h.sane.start hb
      (Prod.ext hid rfl : b.answer p w = (.ok id, (b.answer p w).2))

end World.Remembers

/-- However a platform was asked, two requests that succeeded were answered with one subtype exactly if they are for
the same base, the same sets of interfaces and the same loader, and the platform counts the keys that succeeded. A
request that fails leaves the count, and any other request is granted after it exactly if it is granted before, with
the subtype that it had if it was granted earlier. -/
theorem World.answers_of_asked (hs : w.Sane) (hset : w.SetsKnown) (hp : p.index < w.platforms.size)
    (hempty : (w.platform p).registry = {}) (h : w.Asked p log w') :
    (∀ a s b t, (a, .ok s) ∈ log → (b, .ok t) ∈ log → (s = t ↔ a.Same b)) ∧
    (w'.platform p).registry.generations = log.keys.card ∧
    ∀ (r : SubtypeRequest) fault w'', r.Declared w'.types → r.answer p w' = (.error fault, w'') →
      (w''.platform p).registry.generations = (w'.platform p).registry.generations ∧
      ∀ b : SubtypeRequest, b.Declared w'.types →
        ((∃ t, (b.answer p w'').1 = .ok t) ↔ ∃ t, (b.answer p w').1 = .ok t) ∧
        ∀ a s, (a, .ok s) ∈ log → a.Same b → (b.answer p w').1 = .ok s ∧ (b.answer p w'').1 = .ok s := by
  have hremembers := (Remembers.start hs hset hp hempty).of_asked h
  have hrecords := hremembers.records
  refine ⟨fun a s b t ha hb => ?_, hrecords.generations, fun r fault w'' hr hfailed => ?_⟩
  · have hgetA := (hrecords.get?_iff _ _).2 ⟨a, ha, rfl⟩
    have hgetB := (hrecords.get?_iff _ _).2 ⟨b, hb, rfl⟩
    rw [← SubtypeRequest.key_eq_iff]
    constructor
    · rintro rfl
      exact hremembers.sound.separate _ _ _ hgetA hgetB
    · intro hkey
      exact Option.some.inj (hgetA.symm.trans (hkey ▸ hgetB))
  · have hafter := hremembers.request hr
    rw [hfailed] at hafter
    refine ⟨?_, fun b hb => ⟨hremembers.exists_answer_iff_of_failed hr hfailed hb, fun a s ha hsame => ?_⟩⟩
    · rw [hafter.records.generations, RequestLog.keys_cons_error, hrecords.generations]
    · exact ⟨hremembers.answer_of_same ha hsame, hafter.answer_of_same (List.mem_cons_of_mem _ ha) hsame⟩

/-- The class is extended with the property once, even if it is to be extended with itself in between. -/
theorem World.answers_of_asked_badge : ∃ proxy w' fault w'',
    badgeWorld.createExtensionType .first badge.id [] [named.id] .system = (.ok proxy, w') ∧
    w'.createExtensionType .first badge.id [badge.id] [] .system = (.error fault, w'') ∧
    (w''.createExtensionType .first badge.id [] [named.id, named.id] .system).1 = .ok proxy ∧
    (w''.platform .first).registry.generations = 1 := by
  obtain ⟨proxy, w', h⟩ := exists_createExtensionType_badge
  have hdeclared : SubtypeRequest.Declared badgeWorld.types ⟨badge.id, [], [named.id], .system⟩ := by decide
  have hasked : Asked .first badgeWorld [(⟨badge.id, [], [named.id], .system⟩, .ok proxy)] w' := by
    have hrequest := Asked.request (p := .first) .start _ hdeclared
    rw [SubtypeRequest.answer, h] at hrequest
    exact hrequest
  obtain ⟨-, hcount, hfailed⟩ := answers_of_asked sane_badgeWorld nofun (by decide) rfl hasked
  obtain ⟨hlater, -⟩ := later_createExtensionType (w := badgeWorld) .first .system fun _ => hdeclared
  rw [h] at hlater
  rcases hanswer : w'.createExtensionType .first badge.id [badge.id] [] .system with ⟨fault | id, w''⟩
  · have hself : SubtypeRequest.Declared badgeWorld.types ⟨badge.id, [badge.id], [], .system⟩ := by decide
    have htwice : SubtypeRequest.Declared badgeWorld.types ⟨badge.id, [], [named.id, named.id], .system⟩ := by
      decide
    obtain ⟨hsame, hother⟩ := hfailed _ fault w'' (hself.mono hlater.types) hanswer
    obtain ⟨-, hgranted⟩ := hother _ (htwice.mono hlater.types)
    obtain ⟨-, hafter⟩ := hgranted _ proxy List.mem_cons_self ⟨rfl, fun _ => Iff.rfl, by simp, rfl⟩
    exact ⟨proxy, w', fault, w'', h, hanswer, hafter, hsame.trans hcount⟩
  · obtain ⟨new, hnew⟩ := hlater.types
    have hnumbered : TypeTable.Numbered (new ++ badgeWorld.types) := hnew ▸ (hlater.sane sane_badgeWorld).numbered
    have hlookup : w'.types.lookup? badge.id = some badge := by
      rw [← hnew, hnumbered.lookup?_append (by decide)]
      rfl
    cases interfaces_of_createExtensionType hanswer badge.id List.mem_cons_self badge hlookup

end Interpose
