import Interpose.Proofs.Definitions
import Interpose.Proofs.Hierarchies
import Mathlib.Data.List.Sort
import Mathlib.Data.String.Basic

/-!
# Pairs of accessors

Accessors pair up exactly if each operation is one, no two of one property and role differ in their slot,
and each getter has a setter of its type and each setter a getter. The pairs are in the order of their names
and use up all slots. So which there are does not depend on the order in which operations are met, nor on
which declaration of a slot is met first.
-/

namespace Interpose.Property

variable {m n : Method} {name : String} {role : AccessorRole} {methods methods' seen : List Method}
  {table table' getters setters : Accessors} {pairs pairs' : List PropertyPair}

/-! ## Accessors -/

/-- What an operation is to a property is told by its slot. -/
theorem classify_of_slot {r : AccessorRole × String} (hslot : m.slot = n.slot) (h : classify m = .ok r) :
    classify n = .ok r := by
  obtain ⟨hname, hreturns, hparams⟩ := Slot.mk.inj hslot
  rw [classify, hname, hreturns, hparams] at h
  rw [classify]
  revert h
  repeat' split
  all_goals first | exact id | exact nofun

/-- A getter takes nothing, and a setter takes one argument and returns nothing. -/
theorem shape_of_classify (h : classify m = .ok (role, name)) :
    role = .getter ∧ m.params = [] ∨ role = .setter ∧ m.params.length = 1 ∧ m.returns = .void := by
  rw [classify] at h
  dsimp only at h
  -- by the verb that the name begins with
  split at h
  · split at h
    · cases h
    rename_i hnone
    split at h
    · cases h
    cases h
    exact .inl ⟨rfl, by simpa using hnone⟩
  split at h
  · split at h
    · cases h
    rename_i hnone
    split at h
    · cases h
    cases h
    exact .inl ⟨rfl, by simpa using hnone⟩
  split at h
  · split at h
    · cases h
    rename_i hone
    split at h
    · cases h
    rename_i hvoid
    cases h
    refine .inr ⟨rfl, by simpa using hone, ?_⟩
    cases hreturns : m.returns with
    | void => rfl
    | primitive _ | reference _ | array _ => exact absurd (by rw [hreturns]; rfl) hvoid
  · cases h

theorem params_of_getter (h : classify m = .ok (.getter, name)) : m.params = [] := by
  rcases shape_of_classify h with ⟨-, hparams⟩ | ⟨hrole, -⟩
  · exact hparams
  · cases hrole

theorem params_of_setter (h : classify m = .ok (.setter, name)) :
    ∃ t, m.params = [t] := by
  rcases shape_of_classify h with ⟨hrole, -⟩ | ⟨-, hlength, -⟩
  · cases hrole
  · exact List.length_eq_one_iff.1 hlength

/-! ## Tables of accessors -/

namespace Accessors

theorem mem_insert {a : String × Method} : a ∈ insert name m table ↔ a = (name, m) ∨ a ∈ table := by
  induction table with
  | nil => simp [insert]
  | cons b table ih =>
      rw [insert]
      split
      · rw [List.mem_cons]
      · rw [List.mem_cons, ih, List.mem_cons, or_left_comm]

/-- Whether a table is in the order of its names, each listed once. -/
def Sorted (table : Accessors) : Prop := table.Pairwise fun a b => a.1 < b.1

theorem Sorted.get?_eq_some (h : Sorted table) : table.get? name = some m ↔ (name, m) ∈ table := by
  rw [get?, Option.map_eq_some_iff]
  constructor
  · rintro ⟨a, ha, rfl⟩
    have hname := List.find?_some ha
    rw [beq_iff_eq] at hname
    rw [← hname]
    exact List.mem_of_find?_eq_some ha
  · intro hm
    induction table with
    | nil => cases hm
    | cons a table ih =>
        obtain ⟨hfirst, hrest⟩ := List.pairwise_cons.1 h
        rcases List.mem_cons.1 hm with rfl | hm
        · exact ⟨_, List.find?_cons_of_pos (beq_self_eq_true _), rfl⟩
        · rw [List.find?_cons, beq_eq_false_iff_ne.2 (ne_of_lt (hfirst _ hm))]
          exact ih hrest hm

theorem Sorted.insert (h : Sorted table) (hnew : table.get? name = none) : Sorted (insert name m table) := by
  induction table with
  | nil => exact List.pairwise_singleton _ _
  | cons a table ih =>
      obtain ⟨hfirst, hrest⟩ := List.pairwise_cons.1 h
      rw [get?, Option.map_eq_none_iff, List.find?_cons] at hnew
      split at hnew
      · cases hnew
      rename_i hne
      rw [Accessors.insert]
      split
      · rename_i hlt
        refine List.pairwise_cons.2 ⟨fun b hb => ?_, h⟩
        rcases List.mem_cons.1 hb with rfl | hb
        · exact hlt
        · exact lt_trans hlt (hfirst b hb)
      · rename_i hge
        refine List.pairwise_cons.2 ⟨fun b hb => ?_, ih hrest (Option.map_eq_none_iff.2 hnew)⟩
        rcases mem_insert.1 hb with rfl | hb
        · exact lt_of_le_of_ne (not_lt.1 hge) (beq_eq_false_iff_ne.1 hne)
        · exact hfirst b hb

/-- Whether a table has, in the order of their names, the properties of which some operations are accessors
of one role, each with one of them. -/
structure Lists (role : AccessorRole) (seen : List Method) (table : Accessors) : Prop where
  sorted : Sorted table
  sound : ∀ a ∈ table, a.2 ∈ seen ∧ classify a.2 = .ok (role, a.1)
  complete : ∀ m ∈ seen, ∀ name, classify m = .ok (role, name) → ∃ n, (name, n) ∈ table ∧ n.slot = m.slot

theorem lists_nil (role : AccessorRole) : Lists role [] [] :=
  ⟨List.Pairwise.nil, nofun, nofun⟩

namespace Lists

/-- An operation that is no accessor of the role does not matter. -/
theorem skip (h : Lists role seen table) (hm : ∀ name, classify m ≠ .ok (role, name)) :
    Lists role (seen ++ [m]) table where
  sorted := h.sorted
  sound a ha := ⟨List.mem_append_left _ (h.sound a ha).1, (h.sound a ha).2⟩
  complete n hn name hname := by
    rcases List.mem_append.1 hn with hn | hn
    · exact h.complete n hn name hname
    · rw [List.mem_singleton.1 hn] at hname
      exact absurd hname (hm name)

/-- Noting an accessor adds its property, unless that is there with an accessor of its slot. -/
theorem record (h : Lists role seen table) (hm : classify m = .ok (role, name))
    (htable : record role table name m = .ok table') : Lists role (seen ++ [m]) table' := by
  rw [Accessors.record] at htable
  split at htable
  · rename_i hnone
    cases htable
    refine ⟨h.sorted.insert hnone, fun a ha => ?_, fun n hn other hother => ?_⟩
    · rcases mem_insert.1 ha with rfl | ha
      · exact ⟨List.mem_append_right _ List.mem_cons_self, hm⟩
      · exact ⟨List.mem_append_left _ (h.sound a ha).1, (h.sound a ha).2⟩
    · rcases List.mem_append.1 hn with hn | hn
      · obtain ⟨k, hk, hslot⟩ := h.complete n hn other hother
        exact ⟨k, mem_insert.2 (.inr hk), hslot⟩
      · rw [List.mem_singleton.1 hn] at hother ⊢
        rw [hm] at hother
        cases hother
        exact ⟨m, mem_insert.2 (.inl rfl), rfl⟩
  · rename_i k hk
    split at htable
    · rename_i hslot
      cases htable
      refine ⟨h.sorted, fun a ha => ⟨List.mem_append_left _ (h.sound a ha).1, (h.sound a ha).2⟩,
        fun n hn other hother => ?_⟩
      rcases List.mem_append.1 hn with hn | hn
      · exact h.complete n hn other hother
      · rw [List.mem_singleton.1 hn] at hother ⊢
        rw [hm] at hother
        cases hother
        exact ⟨k, h.sorted.get?_eq_some.1 hk, hslot⟩
    · cases htable

/-- An accessor can be noted if none of its property is in another slot. -/
theorem exists_record (h : Lists role seen table) (name : String)
    (hm : ∀ n ∈ seen, classify n = .ok (role, name) → n.slot = m.slot) :
    ∃ table', Accessors.record role table name m = .ok table' := by
  rw [Accessors.record]
  split
  · exact ⟨_, rfl⟩
  · rename_i n hn
    obtain ⟨hseen, hrole⟩ := h.sound _ (h.sorted.get?_eq_some.1 hn)
    rw [if_pos (hm n hseen hrole)]
    exact ⟨_, rfl⟩

end Lists

end Accessors

/-- What is gathered are the accessors of both roles, and nothing else was there. -/
theorem gather_eq_ok {r : Accessors × Accessors} (hg : Accessors.Lists .getter seen getters)
    (hs : Accessors.Lists .setter seen setters) (h : gather methods getters setters = .ok r) :
    Accessors.Lists .getter (seen ++ methods) r.1 ∧ Accessors.Lists .setter (seen ++ methods) r.2 ∧
      ∀ m ∈ methods, ∃ role name, classify m = .ok (role, name) := by
  induction methods generalizing getters setters seen with
  | nil =>
      cases h
      rw [List.append_nil]
      exact ⟨hg, hs, nofun⟩
  | cons m methods ih =>
      rw [gather, bind_eq_ok] at h
      obtain ⟨⟨role, name⟩, hm, h⟩ := h
      have hother (other : AccessorRole) (hne : other ≠ role) (name' : String) :
          classify m ≠ .ok (other, name') := by
        intro heq
        rw [hm] at heq
        cases heq
        exact hne rfl
      rw [List.append_cons]
      cases role with
      | getter =>
          obtain ⟨table', htable, h⟩ := bind_eq_ok.1 h
          obtain ⟨hgetters, hsetters, hall⟩ := ih (hg.record hm htable) (hs.skip (hother _ nofun)) h
          exact ⟨hgetters, hsetters, List.forall_mem_cons.2 ⟨⟨_, _, hm⟩, hall⟩⟩
      | setter =>
          obtain ⟨table', htable, h⟩ := bind_eq_ok.1 h
          obtain ⟨hgetters, hsetters, hall⟩ := ih (hg.skip (hother _ nofun)) (hs.record hm htable) h
          exact ⟨hgetters, hsetters, List.forall_mem_cons.2 ⟨⟨_, _, hm⟩, hall⟩⟩

/-- Accessors can be gathered if no two of one property and role differ in their slot. -/
theorem exists_gather (hg : Accessors.Lists .getter seen getters)
    (hs : Accessors.Lists .setter seen setters)
    (hclassified : ∀ m ∈ methods, ∃ role name, classify m = .ok (role, name))
    (hunique : ∀ m ∈ seen ++ methods, ∀ n ∈ seen ++ methods, ∀ r, classify m = .ok r →
      classify n = .ok r → m.slot = n.slot) :
    ∃ r, gather methods getters setters = .ok r := by
  induction methods generalizing getters setters seen with
  | nil => exact ⟨_, rfl⟩
  | cons m methods ih =>
      obtain ⟨⟨role, name, hm⟩, hclassified⟩ := List.forall_mem_cons.1 hclassified
      have hmem : m ∈ seen ++ m :: methods := List.mem_append_right _ List.mem_cons_self
      have hslot (n : Method) (hn : n ∈ seen) (hrole : classify n = .ok (role, name)) : n.slot = m.slot :=
        hunique n (List.mem_append_left _ hn) m hmem _ hrole hm
      have hother (other : AccessorRole) (hne : other ≠ role) (name' : String) :
          classify m ≠ .ok (other, name') := by
        intro heq
        rw [hm] at heq
        cases heq
        exact hne rfl
      rw [List.append_cons] at hunique
      cases role with
      | getter =>
          obtain ⟨table', htable⟩ := hg.exists_record name hslot
          obtain ⟨r, hr⟩ := ih (hg.record hm htable) (hs.skip (hother _ nofun)) hclassified hunique
          exact ⟨r, bind_eq_ok.2 ⟨_, hm, bind_eq_ok.2 ⟨_, htable, hr⟩⟩⟩
      | setter =>
          obtain ⟨table', htable⟩ := hs.exists_record name hslot
          obtain ⟨r, hr⟩ := ih (hg.skip (hother _ nofun)) (hs.record hm htable) hclassified hunique
          exact ⟨r, bind_eq_ok.2 ⟨_, hm, bind_eq_ok.2 ⟨_, htable, hr⟩⟩⟩

/-! ## Pairs -/

/-- Pairing takes each getter with the setter of its property, which must be of its type. -/
theorem pairUp_eq_ok : pairUp setters getters = .ok pairs ↔
    List.Forall₂ (fun a p => setters.get? a.1 = some p.setter ∧ p = ⟨a.1, a.2.returns, a.2, p.setter⟩ ∧
      p.setter.params.head? = some a.2.returns) getters pairs := by
  induction getters generalizing pairs with
  | nil =>
      rw [pairUp]
      exact ⟨fun h => by cases h; exact .nil, fun h => by cases h; rfl⟩
  | cons a getters ih =>
      obtain ⟨name, getter⟩ := a
      rw [pairUp]
      constructor
      · intro h
        split at h
        · cases h
        rename_i setter hsetter
        split at h
        · rename_i written _ hparams
          split at h
          · rename_i hwritten
            obtain ⟨rest, hrest, h⟩ := bind_eq_ok.1 h
            rw [pure_eq_ok] at h
            subst h
            exact .cons ⟨hsetter, rfl, by rw [hparams, hwritten]; rfl⟩ (ih.1 hrest)
          · cases h
        · cases h
      · intro h
        cases h with
        | @cons _ p _ rest hp hrest =>
            obtain ⟨hsetter, hp, hwritten⟩ := hp
            rw [hsetter]
            cases hparams : p.setter.params with
            | nil =>
                rw [hparams] at hwritten
                cases hwritten
            | cons written _ =>
                rw [hparams] at hwritten
                cases hwritten
                simp only [hparams, if_true]
                rw [bind_eq_ok]
                exact ⟨rest, ih.2 hrest, by rw [pure_eq_ok, hp]⟩

/-- Getters pair up if the property of each has a setter of its type. -/
theorem exists_pairUp (h : ∀ a ∈ getters, ∃ s, setters.get? a.1 = some s ∧
    s.params.head? = some a.2.returns) : ∃ pairs, pairUp setters getters = .ok pairs := by
  induction getters with
  | nil => exact ⟨[], rfl⟩
  | cons a getters ih =>
      obtain ⟨⟨s, hs, hwritten⟩, hrest⟩ := List.forall_mem_cons.1 h
      obtain ⟨rest, hrest⟩ := ih hrest
      exact ⟨⟨a.1, a.2.returns, a.2, s⟩ :: rest,
        pairUp_eq_ok.2 (.cons ⟨hs, rfl, hwritten⟩ (pairUp_eq_ok.1 hrest))⟩

/-- Whether operations can be paired: each is an accessor, those of one property and role have one slot, and each
getter has a setter of its type and each setter a getter. -/
structure Pairable (methods : List Method) : Prop where
  classified : ∀ m ∈ methods, ∃ role name, classify m = .ok (role, name)
  unique : ∀ m ∈ methods, ∀ n ∈ methods, ∀ role name, classify m = .ok (role, name) →
    classify n = .ok (role, name) → m.slot = n.slot
  written : ∀ m ∈ methods, ∀ name, classify m = .ok (.getter, name) →
    ∃ n ∈ methods, classify n = .ok (.setter, name)
  read : ∀ m ∈ methods, ∀ name, classify m = .ok (.setter, name) →
    ∃ n ∈ methods, classify n = .ok (.getter, name)
  agree : ∀ m ∈ methods, ∀ n ∈ methods, ∀ name, classify m = .ok (.getter, name) →
    classify n = .ok (.setter, name) → n.params = [m.returns]

namespace Pairable

/-- Whether operations can be paired depends on their slots only. -/
theorem congr (h : Pairable methods)
    (hsame : ∀ s, s ∈ methods'.map (·.slot) ↔ s ∈ methods.map (·.slot)) : Pairable methods' := by
  have hback (m : Method) (hm : m ∈ methods') := List.mem_map.1
    ((hsame m.slot).1 (List.mem_map_of_mem hm))
  have hforth (m : Method) (hm : m ∈ methods) := List.mem_map.1
    ((hsame m.slot).2 (List.mem_map_of_mem hm))
  refine ⟨fun m hm => ?_, fun m hm n hn role name hmr hnr => ?_, fun m hm name hrole => ?_,
    fun m hm name hrole => ?_, fun m hm n hn name hmr hnr => ?_⟩
  · obtain ⟨k, hk, hslot⟩ := hback m hm
    obtain ⟨role, name, hrole⟩ := h.classified k hk
    exact ⟨role, name, classify_of_slot hslot hrole⟩
  · obtain ⟨k, hk, hkslot⟩ := hback m hm
    obtain ⟨l, hl, hlslot⟩ := hback n hn
    rw [← hkslot, ← hlslot]
    exact h.unique k hk l hl role name (classify_of_slot hkslot.symm hmr) (classify_of_slot hlslot.symm hnr)
  · obtain ⟨k, hk, hkslot⟩ := hback m hm
    obtain ⟨l, hl, hlrole⟩ := h.written k hk name (classify_of_slot hkslot.symm hrole)
    obtain ⟨n, hn, hnslot⟩ := hforth l hl
    exact ⟨n, hn, classify_of_slot hnslot.symm hlrole⟩
  · obtain ⟨k, hk, hkslot⟩ := hback m hm
    obtain ⟨l, hl, hlrole⟩ := h.read k hk name (classify_of_slot hkslot.symm hrole)
    obtain ⟨n, hn, hnslot⟩ := hforth l hl
    exact ⟨n, hn, classify_of_slot hnslot.symm hlrole⟩
  · obtain ⟨k, hk, hkslot⟩ := hback m hm
    obtain ⟨l, hl, hlslot⟩ := hback n hn
    have hagree := h.agree k hk l hl name (classify_of_slot hkslot.symm hmr) (classify_of_slot hlslot.symm hnr)
    obtain ⟨-, hreturns, -⟩ := Slot.mk.inj hkslot
    obtain ⟨-, -, hparams⟩ := Slot.mk.inj hlslot
    rw [← hparams, hagree, hreturns]

/-- Operations that can be paired are. -/
theorem exists_pair (h : Pairable methods) : ∃ pairs, pair methods = .ok pairs := by
  obtain ⟨⟨getters, setters⟩, hgather⟩ := exists_gather (Accessors.lists_nil _) (Accessors.lists_nil _)
    h.classified fun m hm n hn r => h.unique m hm n hn r.1 r.2
  obtain ⟨hg, hs, -⟩ := gather_eq_ok (Accessors.lists_nil _) (Accessors.lists_nil _) hgather
  rw [List.nil_append] at hg hs
  have hread : setters.find? (fun s => (getters.get? s.1).isNone) = none := by
    refine List.find?_eq_none.2 fun a ha => ?_
    obtain ⟨hmem, hrole⟩ := hs.sound a ha
    obtain ⟨g, hgm, hgrole⟩ := h.read _ hmem _ hrole
    obtain ⟨n, hn, -⟩ := hg.complete g hgm _ hgrole
    rw [hg.sorted.get?_eq_some.2 hn]
    exact Bool.false_ne_true
  have hwritten : ∀ a ∈ getters, ∃ s, setters.get? a.1 = some s ∧ s.params.head? = some a.2.returns := by
    intro a ha
    obtain ⟨hmem, hrole⟩ := hg.sound a ha
    obtain ⟨k, hk, hkrole⟩ := h.written _ hmem _ hrole
    obtain ⟨s, hsm, -⟩ := hs.complete k hk _ hkrole
    obtain ⟨hsmem, hsrole⟩ := hs.sound _ hsm
    refine ⟨s, hs.sorted.get?_eq_some.2 hsm, ?_⟩
    rw [h.agree _ hmem _ hsmem _ hrole hsrole]
    rfl
  obtain ⟨pairs, hpairs⟩ := exists_pairUp hwritten
  refine ⟨pairs, bind_eq_ok.2 ⟨_, hgather, ?_⟩⟩
  dsimp only
  rw [hread]
  exact hpairs

end Pairable

/-- Whether pairs of accessors are the properties that some operations stand for. -/
structure Pairs (methods : List Method) (pairs : List PropertyPair) : Prop where
  sorted : pairs.Pairwise fun p q => p.name < q.name
  getter : ∀ p ∈ pairs, p.getter ∈ methods ∧ classify p.getter = .ok (.getter, p.name) ∧
    p.getter.returns = p.type
  setter : ∀ p ∈ pairs, p.setter ∈ methods ∧ classify p.setter = .ok (.setter, p.name) ∧
    p.setter.params = [p.type]
  complete : ∀ m ∈ methods, ∃ p ∈ pairs, m.slot = p.getter.slot ∨ m.slot = p.setter.slot

theorem pairs_of_pair (h : pair methods = .ok pairs) : Pairs methods pairs := by
  obtain ⟨⟨getters, setters⟩, hgather, h⟩ := bind_eq_ok.1 h
  obtain ⟨hg, hs, hclassified⟩ := gather_eq_ok (Accessors.lists_nil _) (Accessors.lists_nil _) hgather
  rw [List.nil_append] at hg hs
  dsimp only at h hg hs
  split at h
  · cases h
  rename_i hread
  have hpairs := pairUp_eq_ok.1 h
  have hnames : pairs.map (·.name) = getters.map (·.1) := by
    refine (List.forall₂_eq_eq_eq ▸ List.forall₂_map_left_iff.2 (List.forall₂_map_right_iff.2 ?_) :
      getters.map (·.1) = pairs.map (·.name)).symm
    exact hpairs.imp fun a p hp => by rw [hp.2.1]
  have hpair (name : String) (g : Method) (hgetter : (name, g) ∈ getters) :
      ∃ p ∈ pairs, setters.get? name = some p.setter ∧ p.getter = g := by
    obtain ⟨p, hp, hsetter, hrest, -⟩ := exists_of_forall₂ hpairs.flip hgetter
    exact ⟨p, hp, hsetter, by rw [hrest]⟩
  refine ⟨List.pairwise_map.1 (hnames ▸ List.pairwise_map.2 hg.sorted), fun p hp => ?_, fun p hp => ?_,
    fun m hm => ?_⟩
  · obtain ⟨a, ha, -, hrest, -⟩ := exists_of_forall₂ hpairs hp
    rw [hrest]
    exact ⟨(hg.sound a ha).1, (hg.sound a ha).2, rfl⟩
  · obtain ⟨a, ha, hsetter, hrest, hwritten⟩ := exists_of_forall₂ hpairs hp
    obtain ⟨hmem, hrole⟩ := hs.sound _ (hs.sorted.get?_eq_some.1 hsetter)
    obtain ⟨t, ht⟩ := params_of_setter hrole
    rw [ht] at hwritten ⊢
    rw [hrest]
    exact ⟨hmem, hrole, congrArg (fun t => [t]) (Option.some.inj hwritten)⟩
  · obtain ⟨role, name, hrole⟩ := hclassified m hm
    cases role with
    | getter =>
        obtain ⟨g, hgetter, hslot⟩ := hg.complete m hm name hrole
        obtain ⟨p, hp, -, rfl⟩ := hpair name g hgetter
        exact ⟨p, hp, .inl hslot.symm⟩
    | setter =>
        obtain ⟨n, hn, hslot⟩ := hs.complete m hm name hrole
        -- a setter without a getter would have been refused
        have hsome := List.find?_eq_none.1 hread _ hn
        obtain ⟨g, hget⟩ := Option.ne_none_iff_exists'.1 (by simpa using hsome)
        obtain ⟨p, hp, hsetter, -⟩ := hpair name g (hg.sorted.get?_eq_some.1 hget)
        rw [hs.sorted.get?_eq_some.2 hn] at hsetter
        exact ⟨p, hp, .inr (Option.some.inj hsetter ▸ hslot.symm)⟩

namespace Pairs

/-- A pair is told by its name. -/
theorem eq_of_name (h : Pairs methods pairs) {p q : PropertyPair} (hp : p ∈ pairs) (hq : q ∈ pairs)
    (hname : p.name = q.name) : p = q := by
  have hnodup : (pairs.map (·.name)).Nodup :=
    (List.pairwise_map.2 h.sorted).imp fun hlt => ne_of_lt hlt
  exact List.inj_on_of_nodup_map hnodup hp hq hname

/-- What the accessors of pairs are does not depend on which declarations stand for their slots. -/
theorem classify_eq (h : Pairs methods pairs) (hm : ∃ n ∈ methods, n.slot = m.slot) : ∃ p ∈ pairs,
    classify m = .ok (.getter, p.name) ∧ m.slot = p.getter.slot ∨
      classify m = .ok (.setter, p.name) ∧ m.slot = p.setter.slot := by
  obtain ⟨n, hn, hslot⟩ := hm
  obtain ⟨p, hp, hgetter | hsetter⟩ := h.complete n hn
  · have hsame : m.slot = p.getter.slot := hslot.symm.trans hgetter
    exact ⟨p, hp, .inl ⟨classify_of_slot hsame.symm (h.getter p hp).2.1, hsame⟩⟩
  · have hsame : m.slot = p.setter.slot := hslot.symm.trans hsetter
    exact ⟨p, hp, .inr ⟨classify_of_slot hsame.symm (h.setter p hp).2.1, hsame⟩⟩

/-- Operations that were paired can be paired. -/
theorem pairable (h : Pairs methods pairs) : Pairable methods := by
  have hown (m : Method) (hm : m ∈ methods) := h.classify_eq ⟨m, hm, rfl⟩
  -- of one property and role there is one pair only
  have hgetter {m : Method} {name : String} (hm : m ∈ methods)
      (hrole : classify m = .ok (.getter, name)) :
      ∃ p ∈ pairs, p.name = name ∧ m.slot = p.getter.slot := by
    obtain ⟨p, hp, ⟨hrole', hslot⟩ | ⟨hrole', -⟩⟩ := hown m hm
    all_goals obtain ⟨hsame, hname⟩ := Prod.mk.inj (Except.ok.inj (hrole.symm.trans hrole'))
    · exact ⟨p, hp, hname.symm, hslot⟩
    · cases hsame
  have hsetter {m : Method} {name : String} (hm : m ∈ methods)
      (hrole : classify m = .ok (.setter, name)) :
      ∃ p ∈ pairs, p.name = name ∧ m.slot = p.setter.slot := by
    obtain ⟨p, hp, ⟨hrole', -⟩ | ⟨hrole', hslot⟩⟩ := hown m hm
    all_goals obtain ⟨hsame, hname⟩ := Prod.mk.inj (Except.ok.inj (hrole.symm.trans hrole'))
    · cases hsame
    · exact ⟨p, hp, hname.symm, hslot⟩
  refine ⟨fun m hm => ?_, fun m hm n hn role name hmr hnr => ?_, fun m hm name hrole => ?_,
    fun m hm name hrole => ?_, fun m hm n hn name hmr hnr => ?_⟩
  · obtain ⟨p, -, ⟨hrole, -⟩ | ⟨hrole, -⟩⟩ := hown m hm
    · exact ⟨_, _, hrole⟩
    · exact ⟨_, _, hrole⟩
  · cases role with
    | getter =>
        obtain ⟨p, hp, rfl, hpslot⟩ := hgetter hm hmr
        obtain ⟨q, hq, hname, hqslot⟩ := hgetter hn hnr
        rw [hpslot, hqslot, h.eq_of_name hq hp hname]
    | setter =>
        obtain ⟨p, hp, rfl, hpslot⟩ := hsetter hm hmr
        obtain ⟨q, hq, hname, hqslot⟩ := hsetter hn hnr
        rw [hpslot, hqslot, h.eq_of_name hq hp hname]
  · obtain ⟨p, hp, rfl, -⟩ := hgetter hm hrole
    exact ⟨p.setter, (h.setter p hp).1, (h.setter p hp).2.1⟩
  · obtain ⟨p, hp, rfl, -⟩ := hsetter hm hrole
    exact ⟨p.getter, (h.getter p hp).1, (h.getter p hp).2.1⟩
  · obtain ⟨p, hp, rfl, hpslot⟩ := hgetter hm hmr
    obtain ⟨q, hq, hname, hqslot⟩ := hsetter hn hnr
    obtain rfl := h.eq_of_name hq hp hname
    obtain ⟨-, hreturns, -⟩ := Slot.mk.inj hpslot
    obtain ⟨-, -, hparams⟩ := Slot.mk.inj hqslot
    rw [hparams, (h.setter q hq).2.2, hreturns, (h.getter q hq).2.2]

/-- Operations with the slots of operations that pair up pair up. -/
theorem exists_pair (h : Pairs methods pairs)
    (hsame : ∀ s, s ∈ methods'.map (·.slot) ↔ s ∈ methods.map (·.slot)) :
    ∃ pairs', pair methods' = .ok pairs' :=
  (h.pairable.congr hsame).exists_pair

/-- The accessors of pairs have the slots of the operations, and no others. -/
theorem mem_slots (h : Pairs methods pairs) {s : Slot} :
    s ∈ pairs.flatMap (fun p => [p.getter.slot, p.setter.slot]) ↔ s ∈ methods.map (·.slot) := by
  rw [List.mem_flatMap, List.mem_map]
  constructor
  · rintro ⟨p, hp, hs⟩
    rcases List.mem_cons.1 hs with rfl | hs
    · exact ⟨_, (h.getter p hp).1, rfl⟩
    · exact ⟨_, (h.setter p hp).1, (List.mem_singleton.1 hs).symm⟩
  · rintro ⟨m, hm, rfl⟩
    obtain ⟨p, hp, hslot | hslot⟩ := h.complete m hm
    · exact ⟨p, hp, hslot ▸ List.mem_cons_self⟩
    · exact ⟨p, hp, hslot ▸ List.mem_cons_of_mem _ List.mem_cons_self⟩

/-- No two accessors of pairs have one slot. -/
theorem nodup_slots (h : Pairs methods pairs) :
    (pairs.flatMap fun p => [p.getter.slot, p.setter.slot]).Nodup := by
  have hne {p q : PropertyPair} (hp : p ∈ pairs) (hq : q ∈ pairs) : p.getter.slot ≠ q.setter.slot := by
    intro heq
    have hparams := congrArg Slot.params heq
    rw [Method.slot, Method.slot, params_of_getter (h.getter p hp).2.1, (h.setter q hq).2.2] at hparams
    cases hparams
  rw [List.nodup_flatMap]
  refine ⟨fun p hp => ?_, ?_⟩
  · rw [List.nodup_cons, List.mem_singleton]
    exact ⟨hne hp hp, List.nodup_singleton _⟩
  refine h.sorted.imp_of_mem fun {p q} hp hq hlt s hs hs' => ?_
  simp only [List.mem_cons, List.not_mem_nil, or_false] at hs hs'
  have hname {r : AccessorRole} {m n : Method} (hm : classify m = .ok (r, p.name))
      (hn : classify n = .ok (r, q.name)) (hslot : m.slot = n.slot) : False := by
    rw [classify_of_slot hslot hm] at hn
    exact absurd (congrArg Prod.snd (Except.ok.inj hn)) (ne_of_lt hlt)
  rcases hs with rfl | rfl <;> rcases hs' with hs' | hs'
  · exact hname (h.getter p hp).2.1 (h.getter q hq).2.1 hs'
  · exact hne hp hq hs'
  · exact hne hq hp hs'.symm
  · exact hname (h.setter p hp).2.1 (h.setter q hq).2.1 hs'

end Pairs

end Property

/-- What a property is apart from the declarations that stand for its accessors. -/
def PropertyPair.shape (p : PropertyPair) : String × ValueType × Slot × Slot :=
  (p.name, p.type, p.getter.slot, p.setter.slot)

namespace Property

variable {methods methods' : List Method} {pairs pairs' : List PropertyPair}

/-- The pairs among operations of the same slots have the same shapes. -/
theorem Pairs.mem_shapes (h : Pairs methods pairs) (h' : Pairs methods' pairs')
    (hsame : ∀ s, s ∈ methods.map (·.slot) → s ∈ methods'.map (·.slot)) {p : PropertyPair}
    (hp : p ∈ pairs) : p.shape ∈ pairs'.map (·.shape) := by
  have hback (m : Method) (hm : m ∈ methods) := h'.classify_eq
    (List.mem_map.1 (hsame m.slot (List.mem_map_of_mem hm)))
  obtain ⟨hgetter, hgrole, hgtype⟩ := h.getter p hp
  obtain ⟨hsetter, hsrole, -⟩ := h.setter p hp
  obtain ⟨q, hq, ⟨hqrole, hqslot⟩ | ⟨hqrole, -⟩⟩ := hback _ hgetter
  all_goals obtain ⟨hrole, hname⟩ := Prod.mk.inj (Except.ok.inj (hgrole.symm.trans hqrole))
  · obtain ⟨r, hr, ⟨hrrole, -⟩ | ⟨hrrole, hrslot⟩⟩ := hback _ hsetter
    all_goals obtain ⟨hrole', hname'⟩ := Prod.mk.inj (Except.ok.inj (hsrole.symm.trans hrrole))
    · cases hrole'
    · obtain rfl := h'.eq_of_name hr hq (hname'.symm.trans hname)
      refine List.mem_map.2 ⟨r, hr, ?_⟩
      obtain ⟨-, hreturns, -⟩ := Slot.mk.inj hqslot
      rw [PropertyPair.shape, PropertyPair.shape, hname, ← hgtype, hreturns, (h'.getter r hr).2.2, hqslot,
        hrslot]
  · cases hrole

theorem Pairs.shapes_eq (h : Pairs methods pairs) (h' : Pairs methods' pairs')
    (hsame : ∀ s, s ∈ methods.map (·.slot) ↔ s ∈ methods'.map (·.slot)) :
    pairs.map (·.shape) = pairs'.map (·.shape) := by
  -- lists in one strict order are told by their members
  have hirrefl : Std.Irrefl fun a b : String × ValueType × Slot × Slot => a.1 < b.1 :=
    ⟨fun a => lt_irrefl a.1⟩
  have hantisymm : Std.Antisymm fun a b : String × ValueType × Slot × Slot => a.1 < b.1 :=
    ⟨fun a b hab hba => absurd hba (lt_asymm hab)⟩
  have hsorted {methods : List Method} {pairs : List PropertyPair} (h : Pairs methods pairs) :
      (pairs.map (·.shape)).Pairwise fun a b => a.1 < b.1 := List.pairwise_map.2 h.sorted
  refine (hsorted h).eq_of_mem_iff (hsorted h') fun a => ⟨fun ha => ?_, fun ha => ?_⟩
  · obtain ⟨p, hp, rfl⟩ := List.mem_map.1 ha
    exact h.mem_shapes h' (fun s => (hsame s).1) hp
  · obtain ⟨p, hp, rfl⟩ := List.mem_map.1 ha
    exact h'.mem_shapes h (fun s => (hsame s).2) hp

end Property

/-! ## The properties of interfaces -/

namespace TypeTable

variable {new types : TypeTable} {ids ids' : List TypeId} {pairs : List PropertyPair}

/-- The operations that interfaces with properties declare. -/
def propertyMethods (types : TypeTable) (ids : List TypeId) : List Method :=
  (ids.filterMap types.lookup?).flatMap fun t => t.methods.filter fun m => !m.modifiers.isStatic

theorem pairs_of_harvestProperties (h : types.harvestProperties ids = .ok pairs) :
    Property.Pairs (types.propertyMethods ids) pairs := Property.pairs_of_pair h

theorem mem_propertyMethods {m : Method} : m ∈ types.propertyMethods ids ↔
    ∃ i ∈ ids, ∃ t, types.lookup? i = some t ∧ m ∈ t.methods ∧ m.modifiers.isStatic = false := by
  simp only [propertyMethods, List.mem_flatMap, List.mem_filterMap, List.mem_filter, Bool.not_eq_true']
  constructor
  · rintro ⟨t, ⟨i, hi, ht⟩, hm⟩
    exact ⟨i, hi, t, ht, hm⟩
  · rintro ⟨i, hi, t, ht, hm⟩
    exact ⟨t, ⟨i, hi, ht⟩, hm⟩

/-- Which properties interfaces stand for does not depend on the order in which they are given, nor on
repetitions. -/
theorem harvestProperties_congr (hsame : ∀ i, i ∈ ids ↔ i ∈ ids')
    (h : types.harvestProperties ids = .ok pairs) : ∃ pairs', types.harvestProperties ids' = .ok pairs' ∧
      pairs'.map (·.shape) = pairs.map (·.shape) := by
  have hslots (s : Slot) : s ∈ (types.propertyMethods ids').map (·.slot) ↔
      s ∈ (types.propertyMethods ids).map (·.slot) := by
    simp only [List.mem_map, mem_propertyMethods, hsame]
  have hpairs := pairs_of_harvestProperties h
  obtain ⟨pairs', h'⟩ := hpairs.exists_pair hslots
  exact ⟨pairs', h', (pairs_of_harvestProperties h').shapes_eq hpairs hslots⟩

/-- A table says the same about properties when it grows. -/
theorem Numbered.harvestProperties_append (h : Numbered (new ++ types))
    (hids : ∀ i ∈ ids, i.index < types.length) :
    harvestProperties (new ++ types) ids = types.harvestProperties ids := by
  rw [harvestProperties, harvestProperties, List.filterMap_congr fun i hi => h.lookup?_append (hids i hi)]

end TypeTable

/-- The slots of the accessors of properties are told by their shapes. -/
theorem PropertyPair.slots_eq {pairs pairs' : List PropertyPair}
    (h : pairs.map (·.shape) = pairs'.map (·.shape)) :
    (pairs.flatMap fun p => [p.getter.slot, p.setter.slot]) =
      pairs'.flatMap fun p => [p.getter.slot, p.setter.slot] := by
  have hshape (pairs : List PropertyPair) : (pairs.flatMap fun p => [p.getter.slot, p.setter.slot]) =
      (pairs.map (·.shape)).flatMap fun v => [v.2.2.1, v.2.2.2] := by
    rw [List.flatMap_map]
    rfl
  rw [hshape, hshape, h]

end Interpose
