import Interpose.Proofs.Registries

/-!
# Histories of a registry

Whatever a registry is asked for in whatever order, each request generates at most one subtype and ends: it is started
again at most once, when a subtype was dropped that does not provide what is asked for, and what was generated is not
looked at again. So a failure is the failure of the request's own generation, no request changes what is kept under
other keys, and the registry counts the generations that succeeded.
-/

namespace Interpose

namespace Registry

variable {σ ε : Type}

/-- What a registry is asked for: the subtype of a key, with what is to be done to generate it. -/
structure Request (σ ε : Type) where
  key : CacheKey
  create : σ → Except ε TypeId × σ

/-- What a request generates, with a record of what each generation came to. -/
def Request.recording (a : Request σ ε) (s : σ × List (Except ε TypeId)) :
    Except ε TypeId × σ × List (Except ε TypeId) :=
  match a.create s.1 with
  | (result, s') => (result, s', s.2 ++ [result])

/-- A request and how it was answered: the registry and the state that it met and those that it left, and what each of
its generations came to. -/
structure Served (σ ε : Type) where
  request : Request σ ε
  before : Registry
  start : σ
  runs : List (Except ε TypeId)
  result : Except ε TypeId
  after : Registry
  finish : σ

variable (tables : σ → TypeTable)

/-- Whether a round that meets a registry ends a request with what it was answered. -/
def Served.EndsIn (v : Served σ ε) (r : Registry) : Prop :=
  r.round (tables v.start).satisfies v.request.key v.request.recording (v.start, []) =
    .inl (v.result, v.after, v.finish, v.runs)

/-- Answers a request. -/
def serve (a : Request σ ε) (r : Registry) (s : σ) : Served σ ε :=
  match r.getOrCreate (tables s).satisfies a.key a.recording (s, []) with
  | (result, after, finish, runs) => ⟨a, r, s, runs, result, after, finish⟩

/-- Answers requests one after another, each with what the one before it left. -/
def history : List (Request σ ε) → Registry → σ → List (Served σ ε)
  | [], _, _ => []
  | a :: rest, r, s =>
    let served := r.serve tables a s
    served :: history rest served.after served.finish

/-- What a registry is after requests. -/
def afterAll (r : Registry) (served : List (Served σ ε)) : Registry := served.foldl (fun _ v => v.after) r

/-- What the last of some requests for a key was answered with, and what was kept before if there is none. -/
def lastFor (key : CacheKey) (served : List (Served σ ε)) (kept : Option TypeId) : Option TypeId :=
  served.foldl (fun kept v => if key = v.request.key then v.result.toOption else kept) kept

/-- How many generations succeeded. -/
def successes (served : List (Served σ ε)) : Nat := (served.flatMap (·.runs)).countP (·.isOk)

variable {tables} {a : Request σ ε} {r : Registry} {s : σ}

/-- Whether a registry keeps nothing under the key of a request that provides what the request asks for. -/
def Request.Misses (tables : σ → TypeTable) (a : Request σ ε) (r : Registry) (s : σ) : Prop :=
  ∀ t, r.get? a.key = some t → (tables s).satisfies t a.key = false

/-- A request is answered with what is kept, or else with the one generation that it runs. -/
theorem serve_cases (tables : σ → TypeTable) (a : Request σ ε) (r : Registry) (s : σ) :
    (∃ t, r.get? a.key = some t ∧ (tables s).satisfies t a.key = true ∧
      r.serve tables a s = ⟨a, r, s, [], .ok t, r, s⟩) ∨
    a.Misses tables r s ∧
      ((∃ t s', a.create s = (.ok t, s') ∧ r.serve tables a s =
          ⟨a, r, s, [.ok t], .ok t, { r.put a.key (some t) with generations := r.generations + 1 }, s'⟩) ∨
        ∃ e s', a.create s = (.error e, s') ∧
          r.serve tables a s = ⟨a, r, s, [.error e], .error e, r.put a.key none, s'⟩) := by
  by_cases hkept : ∃ t, r.get? a.key = some t ∧ (tables s).satisfies t a.key = true
  · obtain ⟨t, hget, hsatisfies⟩ := hkept
    refine .inl ⟨t, hget, hsatisfies, ?_⟩
    simp only [serve, getOrCreate_eq, hget, hsatisfies, if_true]
  · have hmisses : a.Misses tables r s :=
      fun t hget => Bool.eq_false_iff.2 fun hsatisfies => hkept ⟨t, hget, hsatisfies⟩
    refine .inr ⟨hmisses, ?_⟩
    rcases hcreate : a.create s with ⟨e | t, s'⟩
    · refine .inr ⟨e, s', rfl, ?_⟩
      simp only [serve, getOrCreate_eq_generate hmisses, generate, Request.recording, hcreate, List.nil_append]
    · refine .inl ⟨t, s', rfl, ?_⟩
      simp only [serve, getOrCreate_eq_generate hmisses, generate, Request.recording, hcreate, List.nil_append]

/-- What holds of every request that a registry answers. -/
structure Served.Proper (tables : σ → TypeTable) (v : Served σ ε) : Prop where
  /-- The record of the generations changes nothing. -/
  same : v.before.getOrCreate (tables v.start).satisfies v.request.key v.request.create v.start =
    (v.result, v.after, v.finish)
  /-- The request ends, in its first round or in the one after that. -/
  ends : v.EndsIn tables v.before ∨ ∃ r', v.before.round (tables v.start).satisfies v.request.key v.request.recording
    (v.start, []) = .inr (r', v.start, []) ∧ v.EndsIn tables r'
  runs_le : v.runs.length ≤ 1
  error : ∀ e, v.result = .error e →
    v.runs = [.error e] ∧ (v.request.create v.start).1 = .error e ∧
      (v.request.key, none) ∈ v.after.entries ∧ v.after.get? v.request.key = none
  known : ∀ t, v.before.get? v.request.key = some t → (tables v.start).satisfies t v.request.key = true →
    v.result = .ok t ∧ v.runs = [] ∧ v.after = v.before
  missed : v.request.Misses tables v.before v.start →
    v.runs = [v.result] ∧ v.result = (v.request.create v.start).1 ∧
      ∀ t, v.result = .ok t → v.after.get? v.request.key = some t
  others : (v.after.drop v.request.key).entries = (v.before.drop v.request.key).entries
  generations : v.after.generations = v.before.generations + v.runs.countP (·.isOk)

/-- A request is answered alike whether or not its generations are recorded. -/
theorem getOrCreate_eq_serve (tables : σ → TypeTable) (a : Request σ ε) (r : Registry) (s : σ) :
    r.getOrCreate (tables s).satisfies a.key a.create s =
      ((r.serve tables a s).result, (r.serve tables a s).after, (r.serve tables a s).finish) := by
  rcases serve_cases tables a r s with
    ⟨t, hget, hsatisfies, hserve⟩ | ⟨hmisses, ⟨t, s', hcreate, hserve⟩ | ⟨e, s', hcreate, hserve⟩⟩
  · rw [hserve, getOrCreate_eq, hget]
    exact if_pos hsatisfies
  · rw [hserve, getOrCreate_eq_generate hmisses, generate, hcreate]
  · rw [hserve, getOrCreate_eq_generate hmisses, generate, hcreate]

/-- A request is answered by its first round, or by a second one that the first leaves a smaller registry to. -/
theorem round_getOrCreate (r : Registry) (satisfies : TypeId → CacheKey → Bool) (key : CacheKey)
    (create : σ → Except ε TypeId × σ) (s : σ) :
    r.round satisfies key create s = .inl (r.getOrCreate satisfies key create s) ∨
    ∃ r', r.round satisfies key create s = .inr (r', s) ∧
      r'.round satisfies key create s = .inl (r.getOrCreate satisfies key create s) := by
  cases hget : r.get? key with
  | none =>
    have hround := round_of_none satisfies create s hget
    exact .inl (hround.trans (congrArg _ (getOrCreate_of_inl hround).symm))
  | some t =>
    have hround := round_of_some satisfies create s hget
    by_cases hkept : satisfies t key = true
    · rw [if_pos hkept] at hround
      exact .inl (hround.trans (congrArg _ (getOrCreate_of_inl hround).symm))
    · rw [if_neg hkept] at hround
      have hagain := round_of_none satisfies create s (get?_drop r key)
      refine .inr ⟨r.drop key, hround, hagain.trans (congrArg _ ?_)⟩
      rw [getOrCreate_of_inr hround, getOrCreate_of_inl hagain]

theorem drop_put (r : Registry) (key : CacheKey) (subtype : Option TypeId) :
    ((r.put key subtype).drop key).entries = (r.drop key).entries := by
  simp [drop, put, List.filter_filter]

/-- Every request is answered properly. -/
theorem proper_serve (tables : σ → TypeTable) (a : Request σ ε) (r : Registry) (s : σ) :
    (r.serve tables a s).Proper tables := by
  have hsame := getOrCreate_eq_serve tables a r s
  have hends : (r.serve tables a s).EndsIn tables r ∨ ∃ r', r.round (tables s).satisfies a.key a.recording (s, []) =
      .inr (r', s, []) ∧ (r.serve tables a s).EndsIn tables r' :=
    round_getOrCreate r (tables s).satisfies a.key a.recording (s, [])
  rcases serve_cases tables a r s with
    ⟨t, hget, hsatisfies, hserve⟩ | ⟨hmisses, ⟨t, s', hcreate, hserve⟩ | ⟨e, s', hcreate, hserve⟩⟩
  -- What is kept provides what the request asks for.
  · rw [hserve] at hsame hends ⊢
    refine ⟨hsame, hends, Nat.zero_le _, nofun, fun t' hget' _ => ?_, fun hmisses => ?_, rfl, rfl⟩
    · cases hget.symm.trans hget'
      exact ⟨rfl, rfl, rfl⟩
    · cases (hmisses t hget).symm.trans hsatisfies
  -- The generation succeeds.
  · rw [hserve] at hsame hends ⊢
    refine ⟨hsame, hends, Nat.le_refl _, nofun, fun t' hget' hsatisfies => ?_, fun _ => ⟨rfl, ?_, ?_⟩, ?_, rfl⟩
    · cases (hmisses t' hget').symm.trans hsatisfies
    · exact (congrArg Prod.fst hcreate).symm
    · rintro _ ⟨⟩
      exact get?_put.trans (if_pos rfl)
    · exact drop_put r a.key (some t)
  -- The generation fails.
  · rw [hserve] at hsame hends ⊢
    refine ⟨hsame, hends, Nat.le_refl _, ?_, fun t' hget' hsatisfies => ?_, fun _ => ⟨rfl, ?_, nofun⟩, ?_, rfl⟩
    · rintro _ ⟨⟩
      exact ⟨rfl, congrArg Prod.fst hcreate, List.mem_cons_self, get?_put.trans (if_pos rfl)⟩
    · cases (hmisses t' hget').symm.trans hsatisfies
    · exact (congrArg Prod.fst hcreate).symm
    · exact drop_put r a.key none

/-- After a request, what its key has is what the request was answered with, and other keys have what they had. -/
theorem Served.Proper.get?_after {v : Served σ ε} (h : v.Proper tables) (key : CacheKey) :
    v.after.get? key = if key = v.request.key then v.result.toOption else v.before.get? key := by
  by_cases hkey : key = v.request.key
  · subst hkey
    rw [if_pos rfl]
    by_cases hmisses : v.request.Misses tables v.before v.start
    · obtain ⟨-, -, hkept⟩ := h.missed hmisses
      cases hresult : v.result with
      | error e => exact (h.error e hresult).2.2.2
      | ok t => exact hkept t hresult
    · obtain ⟨t, hget, hsatisfies⟩ : ∃ t, v.before.get? v.request.key = some t ∧
          (tables v.start).satisfies t v.request.key = true := by
        simpa [Request.Misses] using hmisses
      obtain ⟨hresult, -, hsame⟩ := h.known t hget hsatisfies
      rw [hresult, hsame, hget, Except.toOption]
  · rw [if_neg hkey, ← get?_drop_of_ne v.after hkey, ← get?_drop_of_ne v.before hkey, get?, get?, h.others]

/-! ## Histories -/

theorem successes_cons (v : Served σ ε) (rest : List (Served σ ε)) :
    successes (v :: rest) = v.runs.countP (·.isOk) + successes rest := by
  rw [successes, List.flatMap_cons, List.countP_append, successes]

section

variable (tables)

theorem map_request_history (requests : List (Request σ ε)) (r : Registry) (s : σ) :
    (history tables requests r s).map (·.request) = requests := by
  induction requests generalizing r s with
  | nil => rfl
  | cons a rest ih => exact congrArg (a :: ·) (ih _ _)

/-- Each request meets the registry that the ones before it leave, and is answered properly. -/
theorem proper_of_history_eq {requests : List (Request σ ε)} {earlier later : List (Served σ ε)} {v : Served σ ε}
    (h : history tables requests r s = earlier ++ v :: later) : v.before = afterAll r earlier ∧ v.Proper tables := by
  induction requests generalizing r s earlier with
  | nil => cases (List.append_eq_nil_iff.1 h.symm).2
  | cons a rest ih =>
    cases earlier with
    | nil =>
      obtain ⟨rfl, -⟩ := List.cons.inj h
      exact ⟨rfl, proper_serve tables a r s⟩
    | cons first earlier =>
      obtain ⟨rfl, hrest⟩ := List.cons.inj h
      obtain ⟨hbefore, hproper⟩ := ih hrest
      exact ⟨hbefore, hproper⟩

/-- A registry keeps what its last request for a key was answered with, and counts the generations that succeeded. -/
theorem afterAll_history (requests : List (Request σ ε)) (r : Registry) (s : σ) :
    (afterAll r (history tables requests r s)).generations =
        r.generations + successes (history tables requests r s) ∧
      ∀ key, (afterAll r (history tables requests r s)).get? key =
        lastFor key (history tables requests r s) (r.get? key) := by
  induction requests generalizing r s with
  | nil => exact ⟨rfl, fun _ => rfl⟩
  | cons a rest ih =>
    have hproper := proper_serve tables a r s
    obtain ⟨hgenerations, hkept⟩ := ih (r.serve tables a s).after (r.serve tables a s).finish
    refine ⟨hgenerations.trans ?_, fun key => (hkept key).trans ?_⟩
    · rw [hproper.generations, Nat.add_assoc, ← successes_cons]
      rfl
    · rw [hproper.get?_after]
      rfl

/-- **A registry over any history.** Whatever a registry is asked for in whatever order, each request meets what the
ones before it leave and is answered properly: it ends and generates once at most, fails only as its own generation
does, is answered with what is kept if that provides what it asks for and else with what it generates, which is then
kept, and changes nothing under other keys. So the registry keeps for each key what the last request for it came to, and
has counted the generations that succeeded. -/
theorem history_proper (requests : List (Request σ ε)) (r : Registry) (s : σ) :
    (history tables requests r s).map (·.request) = requests ∧
    (∀ earlier v later, history tables requests r s = earlier ++ v :: later →
      v.before = afterAll r earlier ∧ v.Proper tables) ∧
    (afterAll r (history tables requests r s)).generations =
      r.generations + successes (history tables requests r s) ∧
    ∀ key, (afterAll r (history tables requests r s)).get? key =
      lastFor key (history tables requests r s) (r.get? key) :=
  ⟨map_request_history tables requests r s, fun _ _ _ => proper_of_history_eq tables,
    afterAll_history tables requests r s⟩

end

end Registry

end Interpose
