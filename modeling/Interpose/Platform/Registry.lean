import Interpose.Run.World

/-!
# Registries of generated subtypes

A registry answers a request with the subtype generated for it before, if that still provides what
is asked for, and otherwise generates one. A failed generation is tried again by the next request.
-/

namespace Interpose

/-- Puts an identity in its place among increasing ones, unless it is there. -/
def insertId (id : TypeId) : List TypeId → List TypeId
  | [] => [id]
  | other :: rest =>
    if id.index < other.index then id :: other :: rest
    else if id = other then other :: rest
    else other :: insertId id rest

/-- Identities in increasing order and without repetition. -/
def sortedIds (ids : List TypeId) : List TypeId := ids.foldr insertId []

/-- Identities without repetition, in the order in which they first occur. -/
def dedupIds (ids : List TypeId) : List TypeId :=
  ids.foldl (fun found id => if found.contains id then found else found ++ [id]) []

/-- The key of a request. -/
def CacheKey.of (base : TypeId) (interfaces properties : List TypeId) (loader : Loader) :
    CacheKey :=
  ⟨base, sortedIds interfaces, sortedIds properties, loader.id⟩

namespace TypeTable

/-- Whether a type is the proxy layer of a generated subtype. -/
def isProxy (types : TypeTable) (id : TypeId) : Bool :=
  ((types.lookup? id).bind (·.generated)).any (·.role == .proxy)

/-- Whether a subtype provides what a key asks for: the same interfaces, and a loader right below
the one asked for. -/
def satisfies (types : TypeTable) (subtype : TypeId) (key : CacheKey) : Bool :=
  match types.lookup? subtype with
  | none => false
  | some t =>
    (match t.generated with
      | some g => sortedIds g.requested == key.interfaces
      | none => false) &&
    (match t.loader.parent with
      | some parent => parent.id == key.loader
      | none => false)

end TypeTable

namespace Registry

/-- The subtype of a key. -/
def get? (r : Registry) (key : CacheKey) : Option TypeId :=
  (r.entries.find? (·.1 == key)).bind (·.2)

/-- A registry with the entry of a key set. -/
def put (r : Registry) (key : CacheKey) (subtype : Option TypeId) : Registry :=
  { r with entries := (key, subtype) :: r.entries.filter (·.1 != key) }

/-- How many keys there are. -/
def size (r : Registry) : Nat := r.entries.length

/-- Whether a type is one of the subtypes. -/
def contains (r : Registry) (id : TypeId) : Bool := r.entries.any (·.2 == some id)

variable {σ ε : Type}

/-- Generates the subtype of a key; only a success is counted. -/
def generate (r : Registry) (key : CacheKey) (create : σ → Except ε TypeId × σ) (s : σ) :
    Except ε TypeId × Registry × σ :=
  match create s with
  | (.ok t, s) => (.ok t, { r.put key (some t) with generations := r.generations + 1 }, s)
  | (.error e, s) => (.error e, r.put key none, s)

/-- The registry with a cell for a key, an empty one if nothing is kept under the key. -/
def withCell (r : Registry) (key : CacheKey) : Registry :=
  match r.get? key with
  | some _ => r
  | none => r.put key none

/-- The registry without the cell of a key. -/
def drop (r : Registry) (key : CacheKey) : Registry :=
  { r with entries := r.entries.filter (·.1 != key) }

/-- What is in the cell of a key, and whether it was put there just now: an empty cell is filled by a generation, and
stays empty if that fails. -/
def fill (r : Registry) (key : CacheKey) (create : σ → Except ε TypeId × σ) (s : σ) :
    Except ε (TypeId × Bool) × Registry × σ :=
  match r.get? key with
  | some t => (.ok (t, false), r, s)
  | none =>
    match r.generate key create s with
    | (.ok t, r, s) => (.ok (t, true), r, s)
    | (.error e, r, s) => (.error e, r, s)

/-- How a round of a request ends: with the answer, or so that the request starts again. What was just generated is
not looked at again; what was there before and does not provide what the key asks for is dropped with its cell. -/
def round (r : Registry) (satisfies : TypeId → CacheKey → Bool) (key : CacheKey)
    (create : σ → Except ε TypeId × σ) (s : σ) : (Except ε TypeId × Registry × σ) ⊕ (Registry × σ) :=
  match (r.withCell key).fill key create s with
  | (.error e, filled, s) => .inl (.error e, filled, s)
  | (.ok (t, fresh), filled, s) =>
    if fresh || satisfies t key then .inl (.ok t, filled, s) else .inr (filled.drop key, s)

@[simp] theorem get?_drop (r : Registry) (key : CacheKey) : (r.drop key).get? key = none := by
  have hnone : (r.entries.filter (·.1 != key)).find? (·.1 == key) = none := by
    rw [List.find?_eq_none]
    intro n hn heq
    have hne := (List.mem_filter.1 hn).2
    rw [beq_iff_eq.1 heq, bne_self_eq_false] at hne
    cases hne
  rw [get?, drop, hnone, Option.bind_none]

@[simp] theorem put_put (r : Registry) (key : CacheKey) (a b : Option TypeId) :
    (r.put key a).put key b = r.put key b := by
  simp [put, List.filter_filter]

@[simp] theorem put_drop (r : Registry) (key : CacheKey) (a : Option TypeId) :
    (r.drop key).put key a = r.put key a := by
  simp [put, drop, List.filter_filter]

section

variable {r : Registry} {key : CacheKey} (satisfies : TypeId → CacheKey → Bool)
  (create : σ → Except ε TypeId × σ) (s : σ)

/-- A round that finds a subtype generates none. -/
theorem round_of_some {t : TypeId} (h : r.get? key = some t) : r.round satisfies key create s =
    if satisfies t key then .inl (.ok t, r, s) else .inr (r.drop key, s) := by
  simp only [round, withCell, h, fill, Bool.false_or]

/-- A round that finds no subtype ends with what a generation comes to. -/
theorem round_of_none (h : r.get? key = none) :
    r.round satisfies key create s = .inl (r.generate key create s) := by
  have hempty : (r.put key none).get? key = none := by simp [get?, put]
  simp only [round, withCell, h, fill, hempty, generate, put_put]
  rcases create s with ⟨e | t, s'⟩
  · rfl
  · rfl

/-- A request only starts again after its subtype was dropped. -/
theorem get?_of_round {satisfies : TypeId → CacheKey → Bool} {create : σ → Except ε TypeId × σ} {s s' : σ}
    {r' : Registry} (h : r.round satisfies key create s = .inr (r', s')) :
    (r.get? key).isSome = true ∧ r'.get? key = none := by
  cases hget : r.get? key with
  | none =>
    rw [round_of_none satisfies create s hget] at h
    cases h
  | some t =>
    rw [round_of_some satisfies create s hget] at h
    split at h
    · cases h
    · cases h
      exact ⟨rfl, get?_drop r key⟩

end

/-- The subtype of a key, generated if there is none that provides what the key asks for. -/
def getOrCreate (r : Registry) (satisfies : TypeId → CacheKey → Bool) (key : CacheKey)
    (create : σ → Except ε TypeId × σ) (s : σ) : Except ε TypeId × Registry × σ :=
  match h : r.round satisfies key create s with
  | .inl answer => answer
  | .inr (r', s') =>
    have : (r'.get? key).isSome.toNat < (r.get? key).isSome.toNat := by
      rw [(get?_of_round h).1, (get?_of_round h).2]
      exact Nat.one_pos
    r'.getOrCreate satisfies key create s'
termination_by (r.get? key).isSome.toNat

section

variable {r : Registry} {satisfies : TypeId → CacheKey → Bool} {key : CacheKey}
  {create : σ → Except ε TypeId × σ} {s : σ}

theorem getOrCreate_of_inl {answer : Except ε TypeId × Registry × σ}
    (h : r.round satisfies key create s = .inl answer) : r.getOrCreate satisfies key create s = answer := by
  rw [getOrCreate]
  split
  · rename_i hround
    exact Sum.inl.inj (hround.symm.trans h)
  · rename_i hround
    cases hround.symm.trans h

theorem getOrCreate_of_inr {r' : Registry} {s' : σ} (h : r.round satisfies key create s = .inr (r', s')) :
    r.getOrCreate satisfies key create s = r'.getOrCreate satisfies key create s' := by
  rw [getOrCreate]
  split
  · rename_i hround
    cases hround.symm.trans h
  · rename_i hround
    cases hround.symm.trans h
    rfl

end

/-- A request is answered with the subtype that is there if it provides what the key asks for, and else with what a
generation comes to. -/
theorem getOrCreate_eq (r : Registry) (satisfies : TypeId → CacheKey → Bool) (key : CacheKey)
    (create : σ → Except ε TypeId × σ) (s : σ) :
    r.getOrCreate satisfies key create s =
      match r.get? key with
      | some t => if satisfies t key then (.ok t, r, s) else r.generate key create s
      | none => r.generate key create s := by
  cases hget : r.get? key with
  | none => exact getOrCreate_of_inl (round_of_none satisfies create s hget)
  | some t =>
    have hround := round_of_some satisfies create s hget
    by_cases hkept : satisfies t key = true
    · rw [if_pos hkept] at hround
      rw [getOrCreate_of_inl hround]
      exact (if_pos hkept).symm
    · rw [if_neg hkept] at hround
      rw [getOrCreate_of_inr hround, getOrCreate_of_inl (round_of_none satisfies create s (get?_drop r key))]
      simp only [hkept, generate, put_drop]
      rfl

/-- A request for which nothing is there that provides what the key asks for comes to what a generation comes to. -/
theorem getOrCreate_eq_generate {r : Registry} {satisfies : TypeId → CacheKey → Bool} {key : CacheKey}
    {create : σ → Except ε TypeId × σ} {s : σ} (h : ∀ t, r.get? key = some t → satisfies t key = false) :
    r.getOrCreate satisfies key create s = r.generate key create s := by
  rw [getOrCreate_eq]
  split
  · rename_i t hget
    exact if_neg (Bool.eq_false_iff.1 (h t hget))
  · rfl

end Registry

end Interpose
