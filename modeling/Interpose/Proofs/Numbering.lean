import Interpose.Proofs.Nesting

/-!
# Numbers of operations

The thunks of a subtype that is extended again are below those of the new subtype. On an object of that they still
hand over the numbers of their own table, while the dispatcher looks operations up in the table of the nearest proxy.
So which operation is acted on is told by how many slots the two tables list before its own.
-/

namespace Interpose

open Interpose.Action (ComesTo)

/-! ## Places in tables -/

namespace Gathering

variable {l l' : List Method} {s : Slot} {n : Nat}

/-- How many operations of a table come before a slot. -/
def before (l : List Method) (s : Slot) : Nat := l.countP fun m => compare m.slot s == .lt

/-- What comes before a slot is told by the slots of a table. -/
theorem before_congr (h : l'.map (·.slot) = l.map (·.slot)) : before l' s = before l s := by
  have hcount (l : List Method) : before l s = (l.map (·.slot)).countP fun r => compare r s == .lt := by
    rw [before, List.countP_map]
    rfl
  rw [hcount, hcount, h]

/-- In a table in order, the operation of a slot is at the place that as many operations come before as there are
before the slot. -/
theorem Sorted.exists_getElem?_iff (h : Sorted l) :
    (∃ q, l[n]? = some q ∧ q.slot = s) ↔ s ∈ l.map (·.slot) ∧ before l s = n := by
  induction l generalizing n with
  | nil => simp
  | cons m l ih =>
      obtain ⟨hm, hl⟩ := List.pairwise_cons.1 h
      rw [before, List.countP_cons, List.map_cons, List.mem_cons]
      by_cases hlt : compare m.slot s = .lt
      · have hne : s ≠ m.slot := by
          rintro rfl
          rw [Std.ReflOrd.compare_self] at hlt
          cases hlt
        rw [hlt, or_iff_right hne, beq_self_eq_true, if_pos rfl]
        cases n with
        | zero => simpa using hne.symm
        | succ n => simpa [before] using ih hl (n := n)
      · -- what comes later is not before the slot either, nor is it the slot
        have hlater : ∀ k ∈ l, compare s k.slot = .lt := fun k hk => by
          refine Std.TransCmp.lt_of_isLE_of_lt ?_ (hm k hk)
          rw [@Std.OrientedCmp.eq_swap Slot compare]
          cases hcompare : compare m.slot s <;> simp_all
        have hnone : l.countP (fun m => compare m.slot s == .lt) = 0 := by
          refine List.countP_eq_zero.2 fun k hk => ?_
          rw [beq_iff_eq]
          exact Std.OrientedCmp.not_lt_of_lt (hlater k hk)
        have hnew : s ∉ l.map (·.slot) := by
          intro hs
          obtain ⟨k, hk, rfl⟩ := List.mem_map.1 hs
          have hself := hlater k hk
          rw [Std.ReflOrd.compare_self] at hself
          cases hself
        rw [hnone, or_iff_left hnew, if_neg (by simpa using hlt)]
        cases n with
        | zero => simp [eq_comm]
        | succ n =>
            have hrest : ¬∃ q, l[n]? = some q ∧ q.slot = s := fun ⟨q, hq, hslot⟩ =>
              hnew (List.mem_map.2 ⟨q, List.mem_of_getElem? hq, hslot⟩)
            simpa using hrest

end Gathering

/-! ## What is acted on -/

/-- The slots that a proxy lists are those of its operations. -/
theorem TypeTable.exists_operation {types : TypeTable} {id : TypeId} {slots : List Slot} {s : Slot} {n : Nat}
    (h : ((types.proxy? id).map (·.operations)).map (List.map (·.slot)) = some slots) (hs : slots[n]? = some s) :
    ∃ op, (types.proxy? id).bind (·.operations[n]?) = some op ∧ op.slot = s := by
  obtain ⟨operations, hoperations, rfl⟩ := Option.map_eq_some_iff.1 h
  obtain ⟨g, hg, rfl⟩ := Option.map_eq_some_iff.1 hoperations
  rw [List.getElem?_map] at hs
  obtain ⟨op, hop, hslot⟩ := Option.map_eq_some_iff.1 hs
  exact ⟨op, by rw [hg, Option.bind_some, hop], hslot⟩

/-- The generation record that is read on objects of a class is that of the nearest proxy in its chain. -/
theorem TypeTable.proxy?_of_find? {types : TypeTable} {id : TypeId} {t : HostType}
    (h : (types.lineage id).find? (fun t => t.generated.any (·.role == .proxy)) = some t) :
    types.proxy? id = t.generated := by
  rw [proxy?]
  generalize types.lineage id = chain at h
  induction chain with
  | nil => cases h
  | cons s chain ih =>
      rw [List.find?_cons] at h
      cases hgenerated : s.generated with
      | none =>
          rw [hgenerated] at h
          rw [List.filterMap_cons_none hgenerated]
          exact ih h
      | some g =>
          rw [hgenerated, Option.any_some] at h
          rw [List.filterMap_cons_some hgenerated, List.find?_cons]
          cases hrole : g.role == .proxy with
          | true =>
              rw [hrole] at h
              cases h
              exact hgenerated.symm
          | false =>
              rw [hrole] at h
              exact ih h

namespace World

variable {w w' : World} {p : PlatformId} {base base' t t' : HostType}
  {interfaces properties interfaces' properties' : List TypeId} {o : ObjectRef} {op : Method} {n : Nat}

/-- On an object whose nearest proxy is that of a subtype, the operation of a number is looked up in the table of the
subtype. -/
theorem HasSubtype.operationAt_eq_ok_iff {q : Method} (h : w.HasSubtype base interfaces properties t)
    (hnearest : (w.types.lineage o.cls).find? (fun t => t.generated.any (·.role == .proxy)) = some t) :
    Runner.operationAt o n w = (.ok q, w) ↔ (w.types.proxy? t.id).bind (·.operations[n]?) = some q := by
  obtain ⟨e, older, w₀, b, hstands⟩ := h.stands
  have hread := TypeTable.proxy?_of_find? hnearest
  rw [hstands.proxy.proxy?_eq hstands.lookup, Runner.operationAt, Action.bind_apply_ok (Action.get_apply w), hread,
    hstands.proxy.generated]
  simp only [Option.bind_some]
  cases (w₀.types.harvest b.id (dedupIds interfaces ++ [.capability]))[n]? with
  | none =>
      constructor <;> intro heq <;> cases heq
  | some op => exact ⟨fun heq => by cases heq; rfl, fun heq => by cases heq; rfl⟩

end World

/-! ## A class that is extended twice -/

/-- An operation whose slot comes between those of the class with two operations. -/
def valvePour : Method :=
  ⟨"pour", [], .reference stringName, .public ||| .abstract, "Pouring", ⟨3⟩, .abstract⟩

/-- An interface that declares it. -/
def pouring : HostType :=
  ⟨⟨3⟩, "Pouring", .iface, .public ||| .abstract, none, [], [valvePour], [], [], .system, none⟩

/-- The world with the class and the interface. -/
def pouringWorld : World :=
  { World.initial {} with types := pouring :: valve :: TypeTable.initial }

theorem sane_pouringWorld : pouringWorld.Sane :=
  World.sane_of_types _ ⟨rfl, nofun, nofun, numbered_gauge [valveOpen, valveShut]⟩ ⟨[pouring, valve], rfl⟩

/-- No layer is named as the capability is. -/
theorem Naming.layer_ne_capabilityName (base : String) (role : Role) : layer base role ≠ capabilityName :=
  layer_ne (by decide)

/-- The tables of the subtypes start with the operation of the capability. -/
def withCapability (ops : List Method) : List Method := TypeTable.initial.flatMap (·.methods) ++ ops

/-- Nothing in this world is final, named as accessors are or has too many parameters. -/
theorem methods_pouringWorld : ∀ u ∈ pouringWorld.types, ∀ m ∈ u.methods,
    m.isOffered = true ∧ m.params.length < 65000 ∧ ¬Naming.accessorMark.toList <+: m.name.toList := by
  decide

/-- A subtype of the class takes over what the class and the capability declare. -/
theorem declares_pouringWorld {m : Method} :
    pouringWorld.types.Declares valve.id ([] ++ [] ++ [.capability]) m ↔ m ∈ withCapability valve.methods := by
  obtain ⟨c, r, hinitial, hlineage, hlookup, hc, hr⟩ : ∃ c r, TypeTable.initial = [c, r] ∧
      pouringWorld.types.lineage valve.id = [valve, r] ∧ pouringWorld.types.lookup? .capability = some c ∧
      c.interfaces = [] ∧ r.interfaces = [] := ⟨_, _, rfl, rfl, rfl, rfl, rfl⟩
  have hreaches (u : HostType) : pouringWorld.types.Reaches
      (([valve, r] : List HostType).flatMap (·.interfaces) ++ ([] ++ [] ++ [.capability])) u ↔ u = c := by
    rw [show ([valve, r] : List HostType).flatMap (·.interfaces) ++ ([] ++ [] ++ [TypeId.capability]) =
      [.capability] by simp [hr, valve, gauge], TypeTable.reaches_singleton hlookup, hc,
      or_iff_left TypeTable.not_reaches_nil]
  simp only [TypeTable.Declares, TypeTable.InScope, hlineage, hreaches, withCapability, hinitial, List.mem_append,
    List.mem_flatMap, List.mem_cons, List.not_mem_nil, or_false, or_and_right, exists_or, exists_eq_left]
  tauto

/-- Layers can be made for all of that. -/
theorem modest_pouringWorld : pouringWorld.types.Modest valve ([] ++ [] ++ [.capability]) :=
  TypeTable.modest_of_forall (fun u hu m hm => (methods_pouringWorld u hu m hm).2) (by decide)

/-- With the interface, a subtype takes over its operation and that of the capability. -/
theorem reaches_pouring {types : TypeTable} {m : Method} (hgrown : pouringWorld.types <:+ types)
    (hnumbered : types.Numbered) :
    (∃ u, types.Reaches [pouring.id, .capability] u ∧ m ∈ u.methods) ↔ m ∈ withCapability pouring.methods := by
  obtain ⟨new, rfl⟩ := hgrown
  obtain ⟨c, r, hinitial, hlookup, hc, hr⟩ : ∃ c r, TypeTable.initial = [c, r] ∧
      pouringWorld.types.lookup? .capability = some c ∧ c.interfaces = [] ∧ r.methods = [] :=
    ⟨_, _, rfl, rfl, rfl, rfl⟩
  have hpouring : pouringWorld.types.lookup? pouring.id = some pouring := rfl
  have hnone : pouring.interfaces = [] := rfl
  have hreaches (u : HostType) : TypeTable.Reaches (new ++ pouringWorld.types) [pouring.id, .capability] u ↔
      u = pouring ∨ u = c := by
    have hdeclared : ∀ i ∈ [pouring.id, TypeId.capability], i.index < pouringWorld.types.length := by decide
    rw [hnumbered.reaches_append hdeclared, ← List.singleton_append,
      TypeTable.reaches_append, TypeTable.reaches_singleton hpouring, TypeTable.reaches_singleton hlookup, hc, hnone,
      or_iff_left TypeTable.not_reaches_nil, or_iff_left TypeTable.not_reaches_nil]
  simp only [hreaches, or_and_right, exists_or, exists_eq_left, withCapability, hinitial, List.flatMap_cons,
    List.flatMap_nil, hr, List.append_nil, List.mem_append]
  exact or_comm

section

variable {e e' : Emitter} {older older' : TypeTable} {w w' w₀ w₀' : World} {b b' t t' : HostType}
  {interfaces properties interfaces' properties' : List TypeId} {pairs pairs' : List PropertyPair}
  {m : Method} (ha : w.Answered e older w₀ valve [] [] interfaces properties pairs b t)
  (hgrown : pouringWorld.types <:+ w.types)

include ha hgrown

/-- The subtype of the class lists what the class has and the operation of the capability. -/
theorem slots_valve : (w₀.types.harvest b.id (dedupIds interfaces ++ [.capability])).map (·.slot) =
    (withCapability valve.methods).map (·.slot) := by
  have hsorted : Gathering.Sorted (withCapability valve.methods) := by
    unfold Gathering.Sorted
    decide
  have hoffered : ∀ m ∈ withCapability valve.methods, m.isOffered = true := by decide
  refine hsorted.slots_eq (sorted_intercept _) fun s => ?_
  rw [ha.mem_slots hgrown sane_pouringWorld.start (by decide) (by decide), ha.pairs_eq_nil rfl, List.mem_map]
  simp only [declares_pouringWorld]
  constructor
  · rintro ⟨⟨m, hm, hslot, -⟩, -⟩
    exact ⟨m, hm, hslot⟩
  · rintro ⟨m, hm, hslot⟩
    exact ⟨⟨m, hm, hslot, hoffered m hm⟩, fun n hn _ => (Method.isOffered_iff.1 (hoffered n hn)).1,
      List.not_mem_nil⟩

/-- Calls reach all that it lists. -/
theorem isVirtual_valve (hm : m ∈ w₀.types.harvest b.id (dedupIds interfaces ++ [.capability])) :
    m.isVirtual = true := by
  have hall : ∀ m ∈ withCapability valve.methods, m.isVirtual = true := by decide
  refine ha.isVirtual_of_mem hgrown sane_pouringWorld.start (by decide) (fun n hn _ _ => hall n ?_) hm
  exact declares_pouringWorld.1 hn

/-- What a subtype of the subtype of the class names is there. -/
theorem declared_pouring : ∀ i ∈ t.id :: ([pouring.id] ++ []), i.index < w.types.length := by
  refine List.forall_mem_cons.2 ⟨?_, fun i hi => ?_⟩
  · exact ha.stands.numbered.index_lt (TypeTable.mem_of_lookup? ha.stands.lookup).1
  · exact Nat.lt_of_lt_of_le (by revert i; decide) hgrown.length_le

/-- What it takes over is declared by the layers of the subtype, or by the class, the interface or the capability. -/
theorem declares_pouring (hm : w.types.Declares t.id [pouring.id, .capability] m) :
    m ∈ t.methods ++ b.methods ∨ m ∈ withCapability valve.methods ∨ m ∈ withCapability pouring.methods := by
  rcases (ha.stands.declares_iff fun i hi => ha.declared i (List.mem_append_left _ hi)).1 hm with hm | hm | hm
  · exact .inl hm
  · obtain ⟨new, -, hnumbered, -⟩ := ha.stands.grown_base
    have hdeclares := hnumbered.of_append.declares_of_above ha.stands.start ha.stands.base hm
    rw [ha.declares_iff hgrown sane_pouringWorld.start (by decide), declares_pouringWorld] at hdeclares
    exact .inr (.inl hdeclares)
  · exact .inr (.inr ((reaches_pouring hgrown ha.stands.numbered).1 hm))

/-- A subtype of the subtype with the interface can be made. -/
theorem exists_createExtensionType_pouring (hs : w.Sane) (hset : w.SetsKnown) :
    ∃ proxy w', w.createExtensionType .first t.id [pouring.id] [] .system = (.ok proxy, w') := by
  have hdeclared : ∀ i ∈ valve.id :: ([] ++ []), i.index < pouringWorld.types.length := by decide
  have holder : older.Modest valve (properties ++ (dedupIds interfaces ++ [.capability])) :=
    modest_pouringWorld.of_declares fun m => (ha.declares_iff hgrown sane_pouringWorld.start hdeclared).1
  refine ha.exists_createExtensionType .system hs hset holder.fits
    (List.forall_mem_cons.1 (declared_pouring ha hgrown)).2 (fun u hu m hm _ => ?_) (fun i hi u hu => ?_) rfl
  · have hsmall : ∀ m ∈ withCapability pouring.methods,
        m.params.length < 65000 ∧ ¬Naming.accessorMark.toList <+: m.name.toList := by decide
    exact hsmall m ((reaches_pouring hgrown hs.numbered).1 ⟨u, hu, hm⟩)
  · obtain rfl := List.mem_singleton.1 hi
    obtain ⟨new, hnew⟩ := hgrown
    have hnumbered : TypeTable.Numbered (new ++ pouringWorld.types) := hnew ▸ hs.numbered
    rw [← hnew, hnumbered.lookup?_append (by decide)] at hu
    cases hu
    rfl

variable (ha' : w'.Answered e' older' w₀' t [pouring.id] [] interfaces' properties' pairs' b' t')
  (hgrown' : w.types <:+ w'.types)

include ha' hgrown'

/-- The subtype of that with the interface lists the operation of the interface as well. -/
theorem slots_pouring : (w₀'.types.harvest b'.id (dedupIds interfaces' ++ [.capability])).map (·.slot) =
    (withCapability [valveOpen, valvePour, valveShut]).map (·.slot) := by
  have hsorted : Gathering.Sorted (withCapability [valveOpen, valvePour, valveShut]) := by
    unfold Gathering.Sorted
    decide
  have hplain : ∀ m ∈ withCapability [valveOpen, valvePour, valveShut], m.isOffered = true ∧
      ¬Naming.accessorMark.toList <+: m.slot.name.toList := by decide
  have hsplit (m : Method) : m ∈ withCapability [valveOpen, valvePour, valveShut] ↔
      m ∈ withCapability valve.methods ∨ m ∈ withCapability pouring.methods := by
    simp only [withCapability, valve, gauge, pouring, List.mem_append, List.mem_cons, List.not_mem_nil, or_false]
    tauto
  have hreaches (m : Method) := reaches_pouring (m := m) hgrown ha.stands.numbered
  -- only accessors are final, and none of these has a slot that the two tables list
  have hopen {m n : Method} (hm : m ∈ withCapability [valveOpen, valvePour, valveShut])
      (hn : w.types.Declares t.id [pouring.id, .capability] n) (hslot : n.slot = m.slot) :
      n.modifiers.isFinal = false := by
    rcases declares_pouring ha hgrown hn with hn | hn
    · refine Bool.eq_false_iff.2 fun hfinal => ?_
      rcases ha.slot_of_closed hn (by rw [Method.isOffered, hfinal]; rfl) with hclaimed | ⟨op, -, haccessor⟩
      · rw [ha.pairs_eq_nil rfl] at hclaimed
        cases hclaimed
      · refine (hplain m hm).2 ?_
        rw [← hslot, haccessor]
        exact op.slot.prefix_accessor
    · exact (Method.isOffered_iff.1 (hplain n ((hsplit n).2 hn)).1).1
  refine hsorted.slots_eq (sorted_intercept _) fun s => ?_
  rw [ha.mem_slots_again ha' hgrown' (sane_pouringWorld.start.trans hgrown) (declared_pouring ha hgrown),
    slots_valve ha hgrown, ha'.pairs_eq_nil rfl, List.mem_map, List.mem_map]
  constructor
  · rintro ⟨⟨m, hm, hslot⟩ | ⟨u, hu, m, hm, hslot, -⟩, -⟩
    · exact ⟨m, (hsplit m).2 (.inl hm), hslot⟩
    · exact ⟨m, (hsplit m).2 (.inr ((hreaches m).1 ⟨u, hu, hm⟩)), hslot⟩
  · rintro ⟨m, hm, rfl⟩
    refine ⟨?_, fun n hn hslot => hopen hm hn hslot, List.not_mem_nil⟩
    rcases (hsplit m).1 hm with hvalve | hpouring
    · exact .inl ⟨m, hvalve, rfl⟩
    · obtain ⟨u, hu, hmu⟩ := (hreaches m).2 hpouring
      exact .inr ⟨u, hu, m, hmu, rfl, (hplain m hm).1⟩

/-- Nothing that it lists is declared by the capability but the operation of that. -/
theorem declaring_pouring (hm : m ∈ w₀'.types.harvest b'.id (dedupIds interfaces' ++ [.capability]))
    (hslot : m.slot ≠ capabilitySlot) : m.declaring ≠ capabilityName := by
  have hnamed {role : Role} {base : String} (h : m.declaring = Naming.layer base role) :
      m.declaring ≠ capabilityName := h ▸ Naming.layer_ne_capabilityName base role
  have hother : ∀ m ∈ withCapability (valve.methods ++ pouring.methods), m.slot ≠ capabilitySlot →
      m.declaring ≠ capabilityName := by decide
  have hsub {l l' : List Method} (h : l ⊆ l') : withCapability l ⊆ withCapability l' :=
    List.append_subset.2 ⟨List.subset_append_left .., fun n hn => List.mem_append_right _ (h hn)⟩
  rcases ha'.declares_of_mem hgrown' (sane_pouringWorld.start.trans hgrown) (declared_pouring ha hgrown) hm with
    hm | hm
  · obtain ⟨role, hdeclaring⟩ := ha'.declaring_eq (List.mem_append_right _ hm)
    exact hnamed hdeclaring
  rcases declares_pouring ha hgrown hm with hm | hm | hm
  · obtain ⟨role, hdeclaring⟩ := ha.declaring_eq hm
    exact hnamed hdeclaring
  · exact hother m (hsub (List.subset_append_left ..) hm) hslot
  · exact hother m (hsub (List.subset_append_right ..) hm) hslot

end

/-- Whether a world has a subtype of the class and a subtype of that with the interface, and the numbers of the first
are kept. -/
structure World.HasPouring (w : World) (t t' : HostType) : Prop where
  sane : w.Sane
  idle : (w.platform .first).constructing = none
  inner : ∃ interfaces properties, w.Provides .first valve interfaces properties t
  outer : ∃ interfaces properties, w.Provides .first t interfaces properties t'
  table : w.KeepsTable t
  below : t ∈ w.types.lineage t'.id
  slots : ((w.types.proxy? t.id).map (·.operations)).map (List.map (·.slot)) =
    some ((withCapability valve.methods).map (·.slot))
  slots' : ((w.types.proxy? t'.id).map (·.operations)).map (List.map (·.slot)) =
    some ((withCapability [valveOpen, valvePour, valveShut]).map (·.slot))
  isVirtual : ∀ g, w.types.proxy? t.id = some g → ∀ op ∈ g.operations, op.isVirtual = true
  declaring' : ∀ g, w.types.proxy? t'.id = some g → ∀ op ∈ g.operations, op.slot ≠ capabilitySlot →
    op.declaring ≠ capabilityName

/-- Two requests after each other are answered with such subtypes. -/
theorem exists_hasPouring : ∃ (w w₁ : World) (t t' : HostType),
    pouringWorld.createExtensionType .first valve.id [] [] .system = (.ok t.id, w₁) ∧
    w₁.createExtensionType .first t.id [pouring.id] [] .system = (.ok t'.id, w) ∧ w.HasPouring t t' := by
  have hsane := sane_pouringWorld
  have hdeclared : ∀ i ∈ valve.id :: ([] ++ []), i.index < pouringWorld.types.length := by decide
  have hfits : pouringWorld.types.Fits valve ([] ++ (dedupIds [] ++ [.capability])) := modest_pouringWorld.fits
  -- the first request, and what the world is then
  obtain ⟨proxy, w₁, h₁⟩ : ∃ proxy w₁,
      pouringWorld.createExtensionType .first valve.id [] [] .system = (.ok proxy, w₁) :=
    World.exists_createExtensionType_of_fits .system hsane nofun nofun rfl hfits nofun rfl
      (.inr ⟨by decide, by decide⟩)
  obtain ⟨e, older, w₀, interfaces, properties, pairs, b, t, rfl, hprovides, ha⟩ :=
    World.provides_of_createExtensionType hsane (by decide) hdeclared rfl h₁
  obtain ⟨hlater₁, -⟩ := World.later_createExtensionType (w := pouringWorld) .first .system fun _ => hdeclared
  have hset₁ := World.SetsKnown.createExtensionType (w := pouringWorld) nofun .first valve.id [] [] .system
  have hsize₁ := World.size_createExtensionType (w := pouringWorld) .first valve.id [] [] .system
  rw [h₁] at hlater₁ hset₁ hsize₁
  have hs₁ := hlater₁.sane hsane
  have htable : w₁.KeepsTable t := World.keepsTable_of_createExtensionType hsane (by decide)
    (.nil _) hdeclared rfl rfl h₁ ha.stands.lookup
  have hdeclared₁ := declared_pouring ha hlater₁.types
  -- the second request
  obtain ⟨proxy', w₂, h₂⟩ := exists_createExtensionType_pouring ha hlater₁.types hs₁ hset₁
  obtain ⟨e', older', w₀', interfaces', properties', pairs', b', t', rfl, hprovides', ha'⟩ :=
    World.provides_of_createExtensionType hs₁ (hsize₁ ▸ by decide) hdeclared₁ ha.stands.lookup h₂
  obtain ⟨hlater₂, -⟩ := World.later_createExtensionType (w := w₁) .first .system fun _ => hdeclared₁
  have hkeeps := World.keepsArrays_createExtensionType .first t.id [pouring.id] [] .system w₁
  rw [h₂] at hlater₂ hkeeps
  have hs₂ := hlater₂.sane hs₁
  have hinner := hprovides.later hlater₂ hs₁
  refine ⟨w₂, w₁, t, t', h₁, h₂, hs₂, ?_, ⟨_, _, hinner⟩, ⟨_, _, hprovides'⟩, htable.of_keepsArrays hkeeps, ?_, ?_, ?_,
    fun g hg op hop => ?_, fun g hg op hop => ?_⟩
  · exact (hlater₂.constructing .first).trans (hlater₁.constructing .first)
  · exact ha'.stands.mem_lineage_base ha.isInterface_eq_false
  · rw [(ha.stands.later hlater₂.types hs₂.numbered).operations, Option.map_some, slots_valve ha hlater₁.types]
  · rw [ha'.stands.operations, Option.map_some, slots_pouring ha hlater₁.types ha' hlater₂.types]
  · have hoperations := (ha.stands.later hlater₂.types hs₂.numbered).operations
    rw [hg] at hoperations
    exact isVirtual_valve ha hlater₁.types (Option.some.inj hoperations ▸ hop)
  · refine declaring_pouring ha hlater₁.types ha' hlater₂.types ?_
    have hoperations := ha'.stands.operations
    rw [hg] at hoperations
    exact Option.some.inj hoperations ▸ hop

namespace World.HasPouring

variable {w : World} {t t' : HostType} (h : w.HasPouring t t')

include h

/-- The nearest proxy of the second subtype is itself. -/
theorem nearest : (w.types.lineage t'.id).find? (fun t => t.generated.any (·.role == .proxy)) = some t' := by
  obtain ⟨_, _, hprovides⟩ := h.outer
  obtain ⟨_, _, _, _, hstands⟩ := hprovides.subtype.stands
  exact hstands.proxy.find?_lineage hstands.lookup

variable {operations : List Method}

theorem map_slots (hoperations : (w.types.proxy? t.id).map (·.operations) = some operations) :
    operations.map (·.slot) = (withCapability valve.methods).map (·.slot) := by
  have hslots := h.slots
  rw [hoperations] at hslots
  exact Option.some.inj hslots

theorem map_slots' (hoperations : (w.types.proxy? t'.id).map (·.operations) = some operations) :
    operations.map (·.slot) = (withCapability [valveOpen, valvePour, valveShut]).map (·.slot) := by
  have hslots := h.slots'
  rw [hoperations] at hslots
  exact Option.some.inj hslots

end World.HasPouring

/-! ## Numbers that are handed over -/

namespace World

variable {w w' : World} {p : PlatformId} {base base' t t' : HostType}
  {interfaces properties interfaces' properties' : List TypeId} {o : ObjectRef} {op : Method} {n : Nat}

/-- On an object whose class chain has a proxy that a platform of a sane world provides, the thunk of an operation
hands the number of the operation over while the array with the numbers is kept. -/
theorem comesTo_number (hs : w.Sane) (h : w.Provides p base interfaces properties t) (htable : w.KeepsTable t)
    (hop : (w.types.proxy? t.id).bind (·.operations[n]?) = some op) (hn : n < 0x80000000)
    (hbelow : t ∈ w.types.lineage o.cls) :
    ∃ thunk, t.methods[2 * n]? = some thunk ∧ thunk.slot = op.slot ∧
      ∀ {args : List Value} {steps : Nat} (depth : Nat),
        List.Forall₂ (fun t v => w.types.accepts t v = true) op.params args → 6 * op.params.length + 16 ≤ steps →
        ∀ w', w.Aside w' → ComesTo w' (exec steps (depth + 3) (.method thunk o args))
          ((exec steps (depth + 1)).dispatchRouted p o n (args.map Value.box))
          fun types v => types.unboxOrCast op.returns v := by
  obtain ⟨e, older, w₀, b, hstands⟩ := h.subtype.stands
  have hlisted := hstands.getElem?_operations hop
  obtain ⟨thunk, code, hthunk, hslot, -⟩ := hstands.proxy.runTask_thunk hlisted
  refine ⟨thunk, hthunk, hslot, fun {args steps} depth haccepts hsteps w' haside => ?_⟩
  exact hstands.proxy.comesTo_thunk (f := fun _ v => .ok v) hlisted hthunk hn ((h.routes hs htable).aside haside)
    (haside.types ▸ hbelow) (haside.types ▸ haccepts) hsteps depth
    fun w' _ => .refl (letsGo_dispatchRouted steps (depth + 1) p o n _ w')

/-- **Numbers of operations.** On any object whose class chain has a proxy that a platform of a sane world provides, the
thunk of an operation hands the number of the operation over. While the array with the numbers is kept, the dispatcher
then acts on an operation of the same slot exactly if the nearest proxy in the class chain lists the slot, and as many
slots before it as the proxy of the thunk does. -/
theorem operationAt_of_thunk (hs : w.Sane) (h : w.Provides p base interfaces properties t) (htable : w.KeepsTable t)
    (hop : (w.types.proxy? t.id).bind (·.operations[n]?) = some op) (hn : n < 0x80000000)
    (hbelow : t ∈ w.types.lineage o.cls) (h' : w.HasSubtype base' interfaces' properties' t')
    (hnearest : (w.types.lineage o.cls).find? (fun t => t.generated.any (·.role == .proxy)) = some t') :
    ∃ thunk operations operations', t.methods[2 * n]? = some thunk ∧ thunk.slot = op.slot ∧
      (w.types.proxy? t.id).map (·.operations) = some operations ∧
      (w.types.proxy? t'.id).map (·.operations) = some operations' ∧
      (∀ {args : List Value} {steps : Nat} (depth : Nat),
        List.Forall₂ (fun t v => w.types.accepts t v = true) op.params args → 6 * op.params.length + 16 ≤ steps →
        ComesTo w (exec steps (depth + 3) (.method thunk o args))
          ((exec steps (depth + 1)).dispatchRouted p o n (args.map Value.box))
          fun types v => types.unboxOrCast op.returns v) ∧
      ∀ w', w.Aside w' → ((∃ q, Runner.operationAt o n w' = (.ok q, w') ∧ q.slot = op.slot) ↔
        op.slot ∈ operations'.map (·.slot) ∧
          Gathering.before operations' op.slot = Gathering.before operations op.slot) := by
  obtain ⟨e, older, w₀, b, hstands⟩ := h.subtype.stands
  obtain ⟨e', older', w₀', b', hstands'⟩ := h'.stands
  obtain ⟨thunk, hthunk, hslot, hcomes⟩ := comesTo_number hs h htable hop hn hbelow
  refine ⟨thunk, _, _, hthunk, hslot, hstands.operations, hstands'.operations,
    fun {args steps} depth haccepts hsteps => hcomes depth haccepts hsteps w (.refl w), fun w' haside => ?_⟩
  have hsubtype : w'.HasSubtype base' interfaces' properties' t' :=
    h'.grown (haside.types ▸ List.suffix_rfl) (haside.types ▸ h'.numbered)
  have hread (q : Method) := hsubtype.operationAt_eq_ok_iff (o := o) (n := n) (q := q) (haside.types ▸ hnearest)
  rw [haside.types, hstands'.proxy.proxy?_eq hstands'.lookup] at hread
  -- the number is the place of the operation in the table of the thunk
  have hplace := ((sorted_intercept _).exists_getElem?_iff.1 ⟨op, hstands.getElem?_operations hop, rfl⟩).2
  simp only [hread, Option.bind_some]
  rw [TypeTable.harvest, (sorted_intercept _).exists_getElem?_iff, TypeTable.harvest, hplace]

/-- On objects of the second subtype, the operation that comes before that of the interface is the one that the thunk of
the first is about. -/
theorem operationAt_of_thunk_pouring : ∃ (w w₁ : World) (t t' : HostType),
    pouringWorld.createExtensionType .first valve.id [] [] .system = (.ok t.id, w₁) ∧
    w₁.createExtensionType .first t.id [pouring.id] [] .system = (.ok t'.id, w) ∧
    ∃ thunk, t.methods[2]? = some thunk ∧ thunk.slot = valveOpen.slot ∧
      ComesTo w (exec 16 3 (.method thunk ⟨0, t'.id⟩ [])) ((exec 16 1).dispatchRouted .first ⟨0, t'.id⟩ 1 [])
        (fun types v => types.unboxOrCast valveOpen.returns v) ∧
      ∃ q, Runner.operationAt ⟨0, t'.id⟩ 1 w = (.ok q, w) ∧ q.slot = valveOpen.slot := by
  obtain ⟨w, w₁, t, t', h₁, h₂, h⟩ := exists_hasPouring
  refine ⟨w, w₁, t, t', h₁, h₂, ?_⟩
  obtain ⟨op, hop, hslot⟩ := TypeTable.exists_operation (n := 1) (s := valveOpen.slot) h.slots rfl
  obtain ⟨_, _, hinner⟩ := h.inner
  obtain ⟨_, _, houter⟩ := h.outer
  obtain ⟨thunk, operations, operations', hthunk, hthunkSlot, hoperations, hoperations', hcomes, hacts⟩ :=
    operationAt_of_thunk (o := ⟨0, t'.id⟩) h.sane hinner h.table hop (by decide) h.below houter.subtype h.nearest
  obtain ⟨-, hreturns, hparams⟩ := Slot.mk.inj hslot
  have hslots := h.map_slots hoperations
  have hslots' := h.map_slots' hoperations'
  refine ⟨thunk, hthunk, hthunkSlot.trans hslot, ?_, ?_⟩
  · have hcomes : ComesTo w (exec 16 3 (.method thunk ⟨0, t'.id⟩ []))
        ((exec 16 1).dispatchRouted .first ⟨0, t'.id⟩ 1 []) fun types v => types.unboxOrCast op.returns v :=
      hcomes 0 (hparams ▸ .nil) (by rw [hparams]; decide)
    rwa [hreturns] at hcomes
  · rw [← hslot]
    refine (hacts w (.refl w)).2 ⟨?_, ?_⟩
    · rw [hslots', hslot]
      decide
    · rw [Gathering.before_congr hslots, Gathering.before_congr hslots', hslot]
      decide

/-- The thunk of the operation that comes after that of the interface makes the dispatcher act on the operation of the
interface. -/
theorem operationAt_of_thunk_differs : ∃ (w w₁ : World) (t t' : HostType),
    pouringWorld.createExtensionType .first valve.id [] [] .system = (.ok t.id, w₁) ∧
    w₁.createExtensionType .first t.id [pouring.id] [] .system = (.ok t'.id, w) ∧
    t ∈ w.types.lineage t'.id ∧
    ∃ op thunk, (w.types.proxy? t.id).bind (·.operations[2]?) = some op ∧ op.slot = valveShut.slot ∧
      t.methods[4]? = some thunk ∧ thunk.slot = valveShut.slot ∧
      ComesTo w (exec 16 3 (.method thunk ⟨0, t'.id⟩ [])) ((exec 16 1).dispatchRouted .first ⟨0, t'.id⟩ 2 [])
        (fun types v => types.unboxOrCast valveShut.returns v) ∧
      ∃ q, Runner.operationAt ⟨0, t'.id⟩ 2 w = (.ok q, w) ∧ q.slot = valvePour.slot := by
  obtain ⟨w, w₁, t, t', h₁, h₂, h⟩ := exists_hasPouring
  obtain ⟨op, hop, hslot⟩ := TypeTable.exists_operation (n := 2) (s := valveShut.slot) h.slots rfl
  obtain ⟨_, _, hinner⟩ := h.inner
  obtain ⟨_, _, houter⟩ := h.outer
  obtain ⟨thunk, hthunk, hthunkSlot, hcomes⟩ :=
    comesTo_number (o := ⟨0, t'.id⟩) h.sane hinner h.table hop (by decide) h.below
  obtain ⟨-, hreturns, hparams⟩ := Slot.mk.inj hslot
  refine ⟨w, w₁, t, t', h₁, h₂, h.below, op, thunk, hop, hslot, hthunk, hthunkSlot.trans hslot, ?_, ?_⟩
  · have hcomes : ComesTo w (exec 16 3 (.method thunk ⟨0, t'.id⟩ []))
        ((exec 16 1).dispatchRouted .first ⟨0, t'.id⟩ 2 []) fun types v => types.unboxOrCast op.returns v :=
      hcomes 0 (hparams ▸ .nil) (by rw [hparams]; decide) w (.refl w)
    rwa [hreturns] at hcomes
  · obtain ⟨q, hq, hqslot⟩ := TypeTable.exists_operation (n := 2) (s := valvePour.slot) h.slots' rfl
    exact ⟨q, (houter.subtype.operationAt_eq_ok_iff h.nearest).2 hq, hqslot⟩

end World

end Interpose
