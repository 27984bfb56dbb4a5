import Interpose.Proofs.Reachability
import Mathlib.Logic.Relation

/-!
# How interfaces are discovered

The loop that lists interfaces keeps a stack of the types that wait. Each round takes the top of it: a type that
was found already is passed over, and another one is marked only now, with the types that it extends put on top of
the stack. What a round leaves to be done is still the walk of the stack, where a walk goes into each type as soon
as it meets it. So the loop ends with what the walk finds, in its order.
-/

namespace Interpose.TypeTable

variable {types : TypeTable} {base id : TypeId} {extra stack : List TypeId} {found result : List HostType}

/-- How far the loop is: the types that wait, the top of the stack first, and those found. -/
structure Discovery where
  waiting : List TypeId
  found : List HostType

namespace Discovery

/-- One round of the loop, unless no type waits. -/
def round? (types : TypeTable) (d : Discovery) : Option Discovery :=
  match d.waiting with
  | [] => none
  | id :: rest =>
    match types.lookup? id with
    | none => some ⟨rest, d.found⟩
    | some t =>
      if d.found.any (·.id == t.id) then some ⟨rest, d.found⟩
      else some ⟨t.interfaces ++ rest, d.found ++ [t]⟩

variable {d d' : Discovery}

/-- What a round can do: it drops a type that there is not or that was found, or it adds a new one. -/
theorem round?_cases (h : d.round? types = some d') : ∃ id rest, d.waiting = id :: rest ∧
    ((d' = ⟨rest, d.found⟩ ∧ types.lookup? id = none) ∨
      ∃ t, types.lookup? id = some t ∧
        ((d' = ⟨rest, d.found⟩ ∧ d.found.any (·.id == t.id) = true) ∨
          (d' = ⟨t.interfaces ++ rest, d.found ++ [t]⟩ ∧ d.found.any (·.id == t.id) = false))) := by
  obtain ⟨waiting, found⟩ := d
  rw [round?] at h
  split at h
  · cases h
  · rename_i id rest hwaiting
    refine ⟨id, rest, hwaiting, ?_⟩
    split at h
    · rename_i hnone
      exact .inl ⟨(Option.some.inj h).symm, hnone⟩
    · rename_i t ht
      refine .inr ⟨t, ht, ?_⟩
      split at h
      · rename_i hold
        exact .inl ⟨(Option.some.inj h).symm, hold⟩
      · rename_i hnew
        exact .inr ⟨(Option.some.inj h).symm, Bool.eq_false_iff.2 hnew⟩

/-- A round leaves the walk to be done that was to be done before it. -/
theorem walk_round? (hn : types.Numbered) (h : d.round? types = some d') :
    types.walk d'.waiting d'.found = types.walk d.waiting d.found := by
  obtain ⟨id, rest, hwaiting, ⟨rfl, hnone⟩ | ⟨t, ht, ⟨rfl, hold⟩ | ⟨rfl, hnew⟩⟩⟩ := round?_cases h
  · rw [hwaiting, walk_cons, collect_of_lookup?_none hnone]
  · rw [(mem_of_lookup? ht).2] at hold
    rw [hwaiting, walk_cons, hn.collect_of_lookup? ht, if_pos hold]
  · rw [(mem_of_lookup? ht).2] at hnew
    rw [hwaiting, walk_cons, hn.collect_of_lookup? ht, hnew, if_neg Bool.false_ne_true, walk_append]

/-- A round finds no type twice. -/
theorem nodup_round? (hnodup : (d.found.map (·.id)).Nodup) (h : d.round? types = some d') :
    (d'.found.map (·.id)).Nodup := by
  obtain ⟨id, rest, -, ⟨rfl, -⟩ | ⟨t, -, ⟨rfl, -⟩ | ⟨rfl, hnew⟩⟩⟩ := round?_cases h
  · exact hnodup
  · exact hnodup
  · rw [List.map_append, List.map_singleton, ← List.concat_eq_append, List.nodup_concat]
    refine ⟨fun hmem => ?_, hnodup⟩
    obtain ⟨s, hs, hsame⟩ := List.mem_map.1 hmem
    exact Bool.false_ne_true (hnew.symm.trans (List.any_eq_true.2 ⟨s, hs, beq_iff_eq.2 hsame⟩))

/-- Whether some rounds lead from one state of the loop to another. -/
abbrev Rounds (types : TypeTable) : Discovery → Discovery → Prop :=
  Relation.ReflTransGen fun d d' => d.round? types = some d'

/-- Rounds leave the walk to be done that was to be done before them. -/
theorem Rounds.walk (hn : types.Numbered) (h : Rounds types d d') :
    types.walk d'.waiting d'.found = types.walk d.waiting d.found := by
  induction h with
  | refl => rfl
  | tail _ hround ih => exact (walk_round? hn hround).trans ih

/-- Rounds find no type twice. -/
theorem Rounds.nodup (hnodup : (d.found.map (·.id)).Nodup) (h : Rounds types d d') :
    (d'.found.map (·.id)).Nodup := by
  induction h with
  | refl => exact hnodup
  | tail _ hround ih => exact nodup_round? ih hround

/-- A loop that has ended has found what the walk of its stack finds. -/
theorem Rounds.found_eq (hn : types.Numbered) (h : Rounds types ⟨stack, found⟩ ⟨[], result⟩) :
    result = types.walk stack found :=
  h.walk hn

/-- The loop ends, whatever waits. -/
theorem rounds_extendFound (types : TypeTable) (stack : List TypeId) (found : List HostType) :
    Rounds types ⟨stack, found⟩ ⟨[], types.extendFound stack found⟩ := by
  fun_induction extendFound types stack found with
  | case1 found => exact .refl
  | case2 found id stack hnone ih =>
      refine .head ?_ ih
      simp only [round?, hnone]
  | case3 found id stack t ht hold ih =>
      refine .head ?_ ih
      simp only [round?, ht, if_pos hold]
  | case4 found id stack t ht hnew ih =>
      refine .head ?_ ih
      simp only [round?, ht, if_neg hnew]

end Discovery

/-- The loop that lists the interfaces of a type and those of a list ends. Its result is what the walk that found the
former finds when it goes on through the list, where each type that it meets is passed over if it was found and
otherwise added before what it extends. No type is listed twice, and those listed are the ones reached from the class
chain or from the list. -/
theorem Numbered.interfaceList_eq_walk (h : types.Numbered) (base : TypeId) (extra : List TypeId) :
    Discovery.Rounds types ⟨extra, types.allInterfaces base⟩ ⟨[], types.interfaceList base extra⟩ ∧
    types.allInterfaces base = types.walk ((types.lineage base).flatMap (·.interfaces)) [] ∧
    types.interfaceList base extra = types.walk extra (types.allInterfaces base) ∧
    (∀ id t found, types.lookup? id = some t → types.collect id found =
      if found.any (·.id == id) then found else types.walk t.interfaces (found ++ [t])) ∧
    ((types.interfaceList base extra).map (·.id)).Nodup ∧
    ∀ t, t ∈ types.interfaceList base extra ↔
      types.Reaches ((types.lineage base).flatMap (·.interfaces) ++ extra) t := by
  have hrounds := Discovery.rounds_extendFound types extra (types.allInterfaces base)
  have hone := Discovery.rounds_extendFound types ((types.lineage base).flatMap (·.interfaces) ++ extra) []
  rw [← h.interfaceList_eq] at hone
  refine ⟨hrounds, allInterfaces_eq_walk types base, hrounds.found_eq h,
    fun id t found ht => h.collect_of_lookup? ht found, Discovery.Rounds.nodup (d := ⟨_, []⟩) List.nodup_nil hone, fun t => ?_⟩
  rw [h.interfaceList_eq, mem_extendFound_nil]

/-! ## Interfaces that meet again -/

/-- A type of some kind without operations that extends some interfaces. -/
def facet (id : TypeId) (name : String) (kind : TypeKind) (superclass : Option TypeId) (interfaces : List TypeId) :
    HostType :=
  ⟨id, name, kind, .public ||| .abstract, superclass, interfaces, [], [], [], .system, none⟩

/-- Two interfaces that extend the same one, a class with one of them, and an interface that extends both. -/
def gemTypes : TypeTable :=
  facet ⟨6⟩ "Gem" .iface none [⟨3⟩, ⟨4⟩] :: facet ⟨5⟩ "Prism" .cls (some .root) [⟨4⟩] ::
    facet ⟨4⟩ "Clear" .iface none [⟨2⟩] :: facet ⟨3⟩ "Solid" .iface none [⟨2⟩] ::
      facet ⟨2⟩ "Shape" .iface none [] :: initial

theorem numbered_gemTypes : gemTypes.Numbered := by
  refine ⟨rfl, nofun, ?_, rfl, ?_, ?_, rfl, nofun, ?_, rfl, nofun, ?_, rfl, nofun, nofun, rfl, nofun, nofun, rfl,
    nofun, nofun, trivial⟩
  all_goals decide

/-- What the class has comes first, and what is asked for several times or met again is listed once. -/
theorem Numbered.interfaceList_eq_walk_gem :
    gemTypes.Numbered ∧ (gemTypes.interfaceList ⟨5⟩ [⟨6⟩, ⟨3⟩, ⟨6⟩]).map (·.name) = ["Clear", "Shape", "Gem", "Solid"] := by
  obtain ⟨-, -, hwalk, -⟩ := numbered_gemTypes.interfaceList_eq_walk ⟨5⟩ [⟨6⟩, ⟨3⟩, ⟨6⟩]
  refine ⟨numbered_gemTypes, ?_⟩
  rw [hwalk]
  rfl

end Interpose.TypeTable
