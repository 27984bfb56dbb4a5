import Interpose.Proofs.Subtypes
import Mathlib.Data.Nat.Find

/-!
# Which accessor is found

The accessor of an operation is looked for by its name and its parameters. The name has the return type
in it, but with an underscore for each separator, so that two operations that only differ in what they
return can have accessors of one name. The one that is listed first is found for both.
-/

namespace Interpose

open Interpose.Action (ComesTo)

/-- Whether an operation that is listed before one stands in its way. -/
def Method.IsHidden (op : Method) (operations : List Method) (n : Nat) : Prop :=
  ∃ j q, j < n ∧ operations[j]? = some q ∧ q.Hides op

/-- There is a first operation that stands in the way of one of a table, since it does so itself. -/
theorem Method.exists_first_hides {operations : List Method} {op : Method} {n : Nat}
    (hop : operations[n]? = some op) :
    ∃ k q, k ≤ n ∧ operations[k]? = some q ∧ q.Hides op ∧ ¬ op.IsHidden operations k := by
  classical
  have hhiding : ∃ (k : Nat) (q : Method), operations[k]? = some q ∧ q.Hides op := ⟨n, op, hop, rfl, .inr rfl⟩
  obtain ⟨q, hk, hhides⟩ := Nat.find_spec hhiding
  refine ⟨Nat.find hhiding, q, Nat.find_min' hhiding ⟨op, hop, rfl, .inr rfl⟩, hk, hhides, ?_⟩
  rintro ⟨j, r, hj, hr, hhides⟩
  exact Nat.find_min hhiding hj ⟨r, hr, hhides⟩

/-- Operations of one name stand in the way of each other if their return types are alike once they are
parts of a name. -/
theorem Method.hides_iff_of_name_eq {q op : Method} (h : q.name = op.name) :
    q.Hides op ↔ q.params = op.params ∧ Naming.flattened q.returns = Naming.flattened op.returns := by
  have hname : q.name ≠ op.accessorName := h ▸ op.name_ne_accessorName
  rw [Hides, or_iff_right hname, accessorName, accessorName, h, Naming.accessor, Naming.accessor,
    String.append_right_inj]

namespace Emitter.Proxy

variable {e : Emitter} {w₀ : World} {bridge base : HostType} {operations : List Method}
  {requested : List TypeId} {t : HostType} {n : Nat} {op own : Method}

/-- A method of a proxy is in one place. -/
theorem place_eq (ht : e.Proxy w₀ bridge base operations requested t) {i j : Nat} {m : Method}
    (hi : t.methods[i]? = some m) (hj : t.methods[j]? = some m) : i = j :=
  (List.getElem?_inj (List.getElem?_eq_some_iff.1 hi).1 (.of_map _ ht.slots)).1 (hi.trans hj.symm)

/-- The accessor of an operation is looked for until the first operation of the table that stands in its way: then it is
the accessor of that one, or its thunk if it is itself named as is looked for. -/
theorem exists_found (ht : e.Proxy w₀ bridge base operations requested t) (hop : operations[n]? = some op) :
    ∃ k q thunk found, k ≤ n ∧ operations[k]? = some q ∧ q.Hides op ∧ ¬ op.IsHidden operations k ∧
      t.methods[2 * k]? = some thunk ∧ t.methods[2 * k + 1]? = some found ∧
      ∀ {types : TypeTable}, types.lookup? t.id = some t →
        types.findAccessor t.id op = .ok (if q.name = op.accessorName then thunk else found) := by
  obtain ⟨k, q, hle, hq, hhides, hfirst⟩ := Method.exists_first_hides hop
  obtain ⟨_, _, -, -, hthunk⟩ := ht.dispatching hq
  obtain ⟨_, _, -, -, hfound⟩ := ht.upward hq
  refine ⟨k, q, _, _, hle, hq, hhides, hfirst, hthunk, hfound, fun hlookup => ?_⟩
  obtain ⟨thunk, found, hthunk', hfound', hfind⟩ := ht.findAccessor_of_first hq hhides
    (fun j r hj hr hhides => hfirst ⟨j, r, hj, hr, hhides⟩) hlookup
  obtain rfl := Option.some.inj (hthunk.symm.trans hthunk')
  obtain rfl := Option.some.inj (hfound.symm.trans hfound')
  exact hfind

/-- The accessor that is found for an operation is the one that was made for it, unless the operation is
hidden. -/
theorem findAccessor_iff (ht : e.Proxy w₀ bridge base operations requested t)
    (hop : operations[n]? = some op) (hown : t.methods[2 * n + 1]? = some own) {types : TypeTable}
    (hlookup : types.lookup? t.id = some t) :
    types.findAccessor t.id op = .ok own ↔ ¬ op.IsHidden operations n := by
  -- the first operation that stands in the way decides which method is found
  obtain ⟨k, q, thunk, other, -, -, -, hfirst, hthunk, hother, hfind⟩ := ht.exists_found hop
  constructor
  · intro hfound
    have hfind := hfind hlookup
    rw [hfound, Except.ok.injEq] at hfind
    have hplace : k = n := by
      split at hfind
      · have := ht.place_eq (hfind ▸ hown) hthunk
        omega
      · have := ht.place_eq (hfind ▸ hown) hother
        omega
    exact hplace ▸ hfirst
  · intro hclear
    refine ht.findAccessor_own hop hown hlookup fun j q hj hq hhides => ?_
    exact hclear ⟨j, q, hj, hq, hhides⟩

end Emitter.Proxy

/-- Whether a method is the accessor that was made for an operation in a place of the table of a subtype:
it takes and gives what the operation does, and running it on an object of the subtype goes up to the body
that the slot of the operation reaches from the superclass. -/
structure World.MadeFor (w : World) (t : HostType) (n : Nat) (op own : Method) : Prop where
  listed : t.methods[2 * n + 1]? = some own
  name : own.name = op.accessorName
  params : own.params = op.params
  returns : own.returns = op.returns
  goesUp : ∃ s, t.superclass = some s ∧ ∀ {this : ObjectRef} {args : List Value} {steps : Nat}
    (depth : Nat), this.cls = t.id → args.length = op.params.length → op.params.length + 3 ≤ steps →
    ComesTo w (exec steps (depth + 1) (.method own this args))
      (Layer.hostSide (exec steps depth) op this args (Layer.superTarget? w.types s op))
      fun _ v => .ok (if op.returns.isVoid then .void else v)

variable {e : Emitter} {older : TypeTable} {w w₀ : World} {base b t : HostType}
  {interfaces properties : List TypeId} {op : Method} {n : Nat}

namespace World.Stands

/-- What an operation has above the proxy is what it had when the proxy was made. -/
theorem superTarget?_bridge (h : w.Stands e older w₀ base interfaces properties b t) (op : Method) :
    Layer.superTarget? w.types b.id op = Layer.superTarget? w₀.types b.id op := by
  obtain ⟨new, hnew⟩ := h.grown
  have hall : w.types = (new ++ [t]) ++ w₀.types := by rw [← hnew, List.append_assoc]; rfl
  have hnumbered : TypeTable.Numbered ((new ++ [t]) ++ w₀.types) := hall ▸ h.numbered
  have hlt : b.id.index < w₀.types.length := by
    refine hnumbered.of_append.index_lt (t := b) ?_
    rw [h.types]
    exact List.mem_cons_self
  rw [hall, Layer.superTarget?, Layer.superTarget?, TypeTable.findVirtual?, TypeTable.findVirtual?,
    hnumbered.methodsOf_append hlt]

/-- Each operation of a subtype has an accessor that was made for it. -/
theorem exists_madeFor (h : w.Stands e older w₀ base interfaces properties b t)
    (hop : (w₀.types.harvest b.id (dedupIds interfaces ++ [TypeId.capability]))[n]? = some op) :
    ∃ own, w.MadeFor t n op own := by
  obtain ⟨_, _, -, -, hown⟩ := h.proxy.upward hop
  refine ⟨_, hown, rfl, rfl, rfl, b.id, h.proxy.superclass, fun depth hcls hargs hsteps => ?_⟩
  rw [h.superTarget?_bridge]
  exact h.proxy.comesTo_accessor hop hown (hcls ▸ TypeTable.mem_lineage h.lookup) hargs hsteps depth

end World.Stands

/-- The accessor that is found for an operation of a subtype is the one that was made for it exactly if no
operation that is listed before hides it. Two operations have one accessor only if one of them is
hidden. -/
theorem World.HasSubtype.findAccessor_eq_own_iff (h : w.HasSubtype base interfaces properties t)
    {operations : List Method} (hoperations : (w.types.proxy? t.id).map (·.operations) = some operations)
    (hop : operations[n]? = some op) :
    ∃ own, w.MadeFor t n op own ∧
      (w.types.findAccessor t.id op = .ok own ↔ ¬ op.IsHidden operations n) ∧
      ∀ {m : Nat} {q : Method}, operations[m]? = some q →
        w.types.findAccessor t.id q = w.types.findAccessor t.id op →
        m = n ∨ q.IsHidden operations m ∨ op.IsHidden operations n := by
  obtain ⟨e, older, w₀, b, hs⟩ := h.stands
  obtain rfl := Option.some.inj (hs.operations.symm.trans hoperations)
  obtain ⟨own, hmade⟩ := hs.exists_madeFor hop
  refine ⟨own, hmade, hs.proxy.findAccessor_iff hop hmade.listed hs.lookup, fun {m q} hq hshared => ?_⟩
  obtain ⟨other, hother⟩ := hs.exists_madeFor hq
  by_cases hclear : op.IsHidden (w₀.types.harvest b.id (dedupIds interfaces ++ [TypeId.capability])) n
  · exact .inr (.inr hclear)
  by_cases hclear' : q.IsHidden (w₀.types.harvest b.id (dedupIds interfaces ++ [TypeId.capability])) m
  · exact .inr (.inl hclear')
  refine .inl ?_
  -- neither is hidden, so each has its own accessor, and the places of these are the same
  rw [(hs.proxy.findAccessor_iff hop hmade.listed hs.lookup).2 hclear,
    (hs.proxy.findAccessor_iff hq hother.listed hs.lookup).2 hclear', Except.ok.injEq] at hshared
  have hplaces := hs.proxy.place_eq (hshared ▸ hother.listed) hmade.listed
  omega

/-! ## Return types that are alike as parts of a name -/

/-- An operation that gives what is of a type of a package. -/
def readQualified : Method :=
  ⟨"read", [], .reference "a.b", .public, "Gauge", ⟨2⟩, .native fun _ _ => .done .null⟩

/-- The same for a type of no package whose name has an underscore. -/
def readPlain : Method :=
  ⟨"read", [], .reference "a_b", .public, "Gauge", ⟨2⟩, .native fun _ _ => .done .null⟩

/-- Whether the proxy of a class with both lists them after the operation of the capability. -/
def TypeTable.ListsReads (types : TypeTable) : Prop :=
  (types.proxy? ⟨4⟩).map (fun g => g.operations.map (·.slot)) =
    some [capabilitySlot, readQualified.slot, readPlain.slot]

instance : DecidablePred TypeTable.ListsReads := fun _ => inferInstanceAs (Decidable (_ = _))

/-- A subtype of the class is generated in some world. -/
theorem exists_hasSubtype_reads : ∃ (w : World) (t : HostType),
    w.HasSubtype (gauge [readQualified, readPlain]) [] [] t ∧ t.id = ⟨4⟩ ∧ w.types.ListsReads := by
  have hgenerate : ∃ w, World.generate ⟨.weave, false⟩ (gauge [readQualified, readPlain]).id [] []
      .system (some ⟨0⟩) { World.initial {} with
        types := gauge [readQualified, readPlain] :: TypeTable.initial } = (.ok ⟨4⟩, w) ∧
      w.types.ListsReads := by
    apply World.exists_generate (P := fun w => w.types.ListsReads)
    · rfl
    · rfl
    · rw [TypeTable.harvestAbstract, TypeTable.harvest, TypeTable.interfaceList, TypeTable.extendFound]
      rfl
    · rfl
    · exact TypeTable.harvest_singleton rfl rfl rfl
    · apply exists_eq_ok_of_decide (P := fun w : World => w.types.ListsReads)
      decide +kernel
    · rfl
  obtain ⟨w, hgenerate, hlists⟩ := hgenerate
  obtain ⟨t, hid, ht, -⟩ := World.hasSubtype_of_generate (p := .first) (numbered_gauge _) ⟨[_], rfl⟩ rfl
    (by simp) (by simp) rfl (AccessorCache.sound_nil 0) hgenerate
  exact ⟨w, t, ht, hid.symm, hlists⟩

namespace TypeTable.ListsReads

variable {types : TypeTable} {t : HostType} {operations : List Method}

/-- The three operations of the proxy. -/
theorem exists_operations (h : types.ListsReads) (hid : t.id = ⟨4⟩) : ∃ a q op,
    (types.proxy? t.id).map (·.operations) = some [a, q, op] ∧ a.slot = capabilitySlot ∧
      q.slot = readQualified.slot ∧ op.slot = readPlain.slot := by
  obtain ⟨g, hg, hslots⟩ := Option.map_eq_some_iff.1 h
  obtain ⟨a, rest, hall, ha, hrest⟩ := List.map_eq_cons_iff.1 hslots
  obtain ⟨q, rest, rfl, hq, hrest⟩ := List.map_eq_cons_iff.1 hrest
  obtain ⟨op, rest, rfl, hop, hrest⟩ := List.map_eq_cons_iff.1 hrest
  obtain rfl := List.map_eq_nil_iff.1 hrest
  rw [hid, hg]
  exact ⟨a, q, op, congrArg some hall, ha, hq, hop⟩

end TypeTable.ListsReads

/-- Both return types are the same part of a name. -/
theorem flattened_read : Naming.flattened readQualified.returns = Naming.flattened readPlain.returns := by
  decide +kernel

/-- The operations of the class have accessors of one name. -/
theorem accessorName_read {q op : Method} (hq : q.slot = readQualified.slot)
    (hop : op.slot = readPlain.slot) :
    q.accessorName = Naming.accessor "read" readPlain.returns ∧
      op.accessorName = Naming.accessor "read" readPlain.returns := by
  obtain ⟨hqname, hqreturns, -⟩ := Slot.mk.inj hq
  obtain ⟨hopname, hopreturns, -⟩ := Slot.mk.inj hop
  rw [Method.accessorName, Method.accessorName, hqname, hqreturns, hopname, hopreturns]
  refine ⟨?_, rfl⟩
  rw [Naming.accessor, flattened_read]
  rfl

/-- The operation of the capability hides no operation of the class. -/
theorem Method.not_hides_read {a op : Method} (ha : a.slot = capabilitySlot)
    (hop : op.accessorName = Naming.accessor "read" readPlain.returns) : ¬ a.Hides op := by
  have hname : capabilitySlot.name ≠ Naming.accessor "read" readPlain.returns ∧
      Naming.accessor capabilitySlot.name capabilitySlot.returns ≠
        Naming.accessor "read" readPlain.returns := by decide +kernel
  obtain ⟨haname, hareturns, -⟩ := Slot.mk.inj ha
  rw [Hides, hop, accessorName, haname, hareturns]
  exact fun h => h.2.elim hname.1 hname.2

/-- For the first of the operations the accessor is found that was made for it. -/
theorem World.HasSubtype.findAccessor_eq_own_iff_reads : ∃ (w : World) (t : HostType) (q own : Method),
    w.HasSubtype (gauge [readQualified, readPlain]) [] [] t ∧ q.slot = readQualified.slot ∧
    w.MadeFor t 1 q own ∧ w.types.findAccessor t.id q = .ok own := by
  obtain ⟨w, t, ht, hid, hlists⟩ := exists_hasSubtype_reads
  obtain ⟨a, q, op, hoperations, ha, hq, hop⟩ := hlists.exists_operations hid
  obtain ⟨own, hmade, hfound, -⟩ := ht.findAccessor_eq_own_iff hoperations (n := 1) rfl
  refine ⟨w, t, q, own, ht, hq, hmade, hfound.2 fun hhidden => ?_⟩
  obtain ⟨j, r, hj, hr, hhides⟩ := hhidden
  obtain rfl := Nat.lt_one_iff.1 hj
  obtain rfl := Option.some.inj hr
  exact Method.not_hides_read ha (accessorName_read hq hop).1 hhides

/-- For the second of the operations the accessor is found that was made for the first one, which gives
what is of another type. -/
theorem World.HasSubtype.findAccessor_reads_differs : ∃ (w : World) (t : HostType) (q op own : Method),
    w.HasSubtype (gauge [readQualified, readPlain]) [] [] t ∧
    (w.types.proxy? t.id).bind (·.operations[1]?) = some q ∧ q.slot = readQualified.slot ∧
    (w.types.proxy? t.id).bind (·.operations[2]?) = some op ∧ op.slot = readPlain.slot ∧
    w.MadeFor t 1 q own ∧ w.types.findAccessor t.id q = .ok own ∧
    w.types.findAccessor t.id op = .ok own ∧ own.returns ≠ op.returns := by
  obtain ⟨w, t, ht, hid, hlists⟩ := exists_hasSubtype_reads
  obtain ⟨a, q, op, hoperations, ha, hq, hop⟩ := hlists.exists_operations hid
  obtain ⟨e, older, w₀, b, hs⟩ := ht.stands
  have hall := Option.some.inj (hs.operations.symm.trans hoperations)
  have hlisted : (w₀.types.harvest b.id (dedupIds [] ++ [TypeId.capability]))[1]? = some q := by
    rw [hall]
    rfl
  obtain ⟨hqname, hqreturns, hqparams⟩ := Slot.mk.inj hq
  obtain ⟨hopname, hopreturns, hopparams⟩ := Slot.mk.inj hop
  obtain ⟨hqaccessor, hopaccessor⟩ := accessorName_read hq hop
  have hfirst {r : Method} (hr : r.accessorName = Naming.accessor "read" readPlain.returns) (j : Nat)
      (s : Method) (hj : j < 1)
      (hs' : (w₀.types.harvest b.id (dedupIds [] ++ [TypeId.capability]))[j]? = some s) :
      ¬ s.Hides r := by
    rw [hall] at hs'
    obtain rfl := Nat.lt_one_iff.1 hj
    obtain rfl := Option.some.inj hs'
    exact Method.not_hides_read ha hr
  obtain ⟨own, hmade⟩ := hs.exists_madeFor hlisted
  have hhides : q.Hides op := by
    rw [Method.hides_iff_of_name_eq (hqname.trans hopname.symm), hqreturns, hopreturns]
    exact ⟨hqparams.trans hopparams.symm, flattened_read⟩
  obtain ⟨_, found, -, hfound, hfind⟩ :=
    hs.proxy.findAccessor_of_first hlisted hhides (hfirst hopaccessor) hs.lookup
  rw [hmade.listed, Option.some.injEq] at hfound
  rw [← hfound, if_neg ((hqname.trans hopname.symm) ▸ op.name_ne_accessorName)] at hfind
  obtain ⟨g, hg, hoperations⟩ := Option.map_eq_some_iff.1 hoperations
  refine ⟨w, t, q, op, own, ht, ?_, hq, ?_, hop, hmade,
    hs.proxy.findAccessor_own hlisted hmade.listed hs.lookup (hfirst hqaccessor), hfind, ?_⟩
  · rw [hg, Option.bind_some, hoperations]
    rfl
  · rw [hg, Option.bind_some, hoperations]
    rfl
  · rw [hmade.returns, hqreturns, hopreturns]
    decide

end Interpose
