import Interpose.Proofs.Subtypes

/-!
# Looking through the methods of a subtype

The methods of a subtype are those of its proxy, in the order of the slots of the operations, and then
those that its base declares. So the first one that a search takes is a thunk if the search takes an
operation of the table, and what it finds on the base if it takes none.
-/

namespace Interpose

namespace TypeTable

/-- Operations without those that cannot answer have the same first one that can. -/
theorem find?_flatMap_filter {P : Method → Bool} {q : HostType → Bool} {l : List HostType}
    (h : ∀ t ∈ l, q t = false → ∀ m ∈ t.methods, P m = false) :
    (l.flatMap (·.methods)).find? P = ((l.filter q).flatMap (·.methods)).find? P := by
  induction l with
  | nil => rfl
  | cons t l ih =>
      have hrest := ih fun s hs => h s (List.mem_cons_of_mem _ hs)
      rw [List.flatMap_cons, List.find?_append, hrest]
      cases hq : q t with
      | true => rw [List.filter_cons_of_pos hq, List.flatMap_cons, List.find?_append]
      | false =>
          have hnone : t.methods.find? P = none := by
            rw [List.find?_eq_none]
            intro m hm hP
            rw [h t List.mem_cons_self hq m hm] at hP
            cases hP
          rw [hnone, Option.none_or, List.filter_cons_of_neg (Bool.eq_false_iff.1 hq)]

/-- Where an interface without further ones comes does not matter to a search that takes none of its
operations. -/
theorem Numbered.find?_gather {types : TypeTable} (h : types.Numbered) {c : HostType}
    (hc : c ∈ types) (hnone : c.interfaces = []) {P : Method → Bool} (l : List HostType)
    (hP : ∀ m ∈ c.methods, P m = false) :
    ((types.gather l [c]).flatMap (·.methods)).find? P =
      ((types.gather l []).flatMap (·.methods)).find? P := by
  have hunique (s : HostType) (hs : s ∈ types) (hid : s.id = c.id) : s = c := by
    have hs' := h.lookup?_of_mem hs
    rw [hid, h.lookup?_of_mem hc] at hs'
    exact (Option.some.inj hs').symm
  have hothers (found : List HostType) (hfound : ∀ s ∈ found, s ∈ types) :
      (found.flatMap (·.methods)).find? P =
        ((found.filter (·.id != c.id)).flatMap (·.methods)).find? P := by
    refine find?_flatMap_filter fun s hs hid m hm => ?_
    rw [bne_eq_false_iff_eq] at hid
    rw [hunique s (hfound s hs) hid] at hm
    exact hP m hm
  have hleft : ([c] : List HostType).filter (·.id != c.id) =
      ([] : List HostType).filter (·.id != c.id) := by simp
  rw [hothers _ (forall_mem_gather (fun _ => id) fun s hs => List.mem_singleton.1 hs ▸ hc),
    hothers _ (forall_mem_gather (fun _ => id) fun s hs => (List.not_mem_nil hs).elim),
    gather_filter (fun s hs hid => hunique s hs hid ▸ hnone) hleft]

end TypeTable

/-- Whether looking through the methods of a subtype for operations of its table cannot tell a redefinition
from what it redefines, and takes neither accessors nor the operation of the capability. -/
structure Emitter.Searches (operations : List Method) (P : Method → Bool) : Prop where
  thunk : ∀ {op m : Method}, m.slot = op.slot → m.modifiers = Layer.overrideModifiers op → P m = P op
  accessor : ∀ op ∈ operations, ∀ m : Method, m.name = Naming.accessor op.name op.returns → P m = false
  capability : ∀ m : Method, m.slot = capabilitySlot → P m = false

namespace Emitter.Searches

variable {operations : List Method} {types : TypeTable} {name : String} {args : List Value}

/-- A call by a name of the host is such a search. -/
theorem reachedWith (hnames : ∀ op ∈ operations, Naming.accessor op.name op.returns ≠ name)
    (hcapability : name ≠ TypeDecl.instanceName) :
    Searches operations (types.reachedWith name args) where
  thunk hslot hmodifiers := by
    rw [TypeTable.reachedWith, TypeTable.reachedWith, Layer.isVirtual_of_modifiers hmodifiers,
      TypeTable.answersWith_congr hslot]
  accessor op hop m hm := by
    simp [TypeTable.reachedWith, TypeTable.answersWith, hm, hnames op hop]
  capability m hm := by
    have hname : m.name = TypeDecl.instanceName := (Slot.mk.inj hm).1
    simp [TypeTable.reachedWith, TypeTable.answersWith, hname, hcapability.symm]

/-- So is a call of a slot of such a name. -/
theorem occupies {slot : Slot}
    (hnames : ∀ op ∈ operations, Naming.accessor op.name op.returns ≠ slot.name)
    (hcapability : slot.name ≠ TypeDecl.instanceName) :
    Searches operations fun m => m.isVirtual && m.occupies slot where
  thunk hslot hmodifiers := by
    rw [Method.occupies, Method.occupies, Layer.isVirtual_of_modifiers hmodifiers, hslot]
  accessor op hop m hm := by
    rw [Bool.and_eq_false_imp]
    intro _
    rw [Method.occupies, beq_eq_false_iff_ne]
    rintro rfl
    exact hnames op hop hm.symm
  capability m hm := by
    rw [Bool.and_eq_false_imp]
    intro _
    rw [Method.occupies, hm, beq_eq_false_iff_ne]
    rintro rfl
    exact hcapability rfl

end Emitter.Searches

/-! ## The methods of a proxy -/

namespace Emitter.Proxy

variable {e : Emitter} {w₀ : World} {bridge base : HostType} {operations : List Method}
  {requested : List TypeId} {t : HostType} {P : Method → Bool} {k op : Method} {i j : Nat}

/-- No two operations of the table are of the same slot. -/
theorem index_eq (ht : e.Proxy w₀ bridge base operations requested t) (hop : operations[i]? = some op)
    (hk : operations[j]? = some k) (hslot : k.slot = op.slot) : i = j := by
  obtain ⟨_, _, -, -, hi⟩ := ht.dispatching hop
  obtain ⟨_, _, -, -, hj⟩ := ht.dispatching hk
  have hlt : 2 * i < (t.methods.map (·.slot)).length := by
    rw [List.length_map]
    exact (List.getElem?_eq_some_iff.1 hi).1
  have hsame : (t.methods.map (·.slot))[2 * i]? = (t.methods.map (·.slot))[2 * j]? := by
    rw [List.getElem?_map, List.getElem?_map, hi, hj]
    exact congrArg some hslot.symm
  have heq := (List.getElem?_inj hlt ht.slots).1 hsame
  omega

/-- A method of a proxy is the thunk or the accessor of one of its operations. A search takes it exactly if
it is a thunk and the search takes the operation. -/
theorem search_getElem (ht : e.Proxy w₀ bridge base operations requested t)
    (hP : Searches operations P) (hj : j < t.methods.length) :
    ∃ op, operations[j / 2]? = some op ∧ P t.methods[j] = (j % 2 == 0 && P op) := by
  obtain ⟨op, hop, hmethod⟩ := ht.getElem_methods hj
  refine ⟨op, hop, ?_⟩
  rcases hmethod with ⟨heven, hslot, hmodifiers⟩ | ⟨hodd, hname, -⟩
  · rw [heven]
    exact hP.thunk hslot hmodifiers
  · rw [hodd]
    exact hP.accessor op (List.mem_of_getElem? hop) _ hname

/-- A search that takes an operation of the table finds the thunk of the first one. -/
theorem find?_methods_of_some (ht : e.Proxy w₀ bridge base operations requested t)
    (hP : Searches operations P) (hk : operations.find? P = some k) :
    ∃ n thunk, operations[n]? = some k ∧ t.methods[2 * n]? = some thunk ∧
      t.methods.find? P = some thunk := by
  obtain ⟨hreached, n, hn, rfl, hbefore⟩ := List.find?_eq_some_iff_getElem.1 hk
  have hlength := ht.length
  have hlt : 2 * n < t.methods.length := by omega
  refine ⟨n, t.methods[2 * n], List.getElem?_eq_getElem hn, List.getElem?_eq_getElem hlt, ?_⟩
  rw [List.find?_eq_some_iff_getElem]
  refine ⟨?_, 2 * n, hlt, rfl, fun j hj => ?_⟩
  · obtain ⟨op, hop, heq⟩ := ht.search_getElem hP hlt
    rw [Nat.mul_div_cancel_left n (by decide), List.getElem?_eq_getElem hn] at hop
    rw [heq, Nat.mul_mod_right, ← Option.some.inj hop, hreached]
    rfl
  · -- a method before the thunk belongs to an operation that is listed before
    obtain ⟨op, hop, heq⟩ := ht.search_getElem hP (Nat.lt_trans hj hlt)
    have hearlier : j / 2 < n := by omega
    rw [List.getElem?_eq_getElem (Nat.lt_trans hearlier hn)] at hop
    have hnone := hbefore _ hearlier
    rw [Option.some.inj hop, Bool.not_eq_true'] at hnone
    rw [heq, hnone, Bool.and_false]
    rfl

/-- A search that takes no operation of the table finds no method of the proxy. -/
theorem find?_methods_of_none (ht : e.Proxy w₀ bridge base operations requested t)
    (hP : Searches operations P) (hnone : operations.find? P = none) : t.methods.find? P = none := by
  rw [List.find?_eq_none] at hnone ⊢
  intro m hm
  obtain ⟨j, hj, rfl⟩ := List.getElem_of_mem hm
  obtain ⟨op, hop, heq⟩ := ht.search_getElem hP hj
  rw [heq, Bool.eq_false_iff.2 (hnone op (List.mem_of_getElem? hop)), Bool.and_false]
  exact Bool.false_ne_true

end Emitter.Proxy

/-! ## The methods of a subtype -/

namespace World.Stands

variable {e : Emitter} {older : TypeTable} {w w₀ : World} {base b t : HostType}
  {properties : List TypeId} {P : Method → Bool}

/-- The class chain of a subtype starts with its two layers. -/
theorem lineage_eq (h : w.Stands e older w₀ base [] properties b t) :
    TypeTable.lineage (t :: w₀.types) t.id = t :: w₀.types.lineage b.id := by
  rw [TypeTable.lineage, if_pos rfl, h.proxy.superclass]

/-- Without interfaces, a subtype has the interfaces of its bridge after that of the capability. -/
theorem allInterfaces_eq (h : w.Stands e older w₀ base [] properties b t) {c : HostType}
    (hid : c.id = TypeId.capability) (hmem : c ∈ w₀.types)
    (hcollect : w₀.types.collect .capability [] = [c]) :
    TypeTable.allInterfaces (t :: w₀.types) t.id = w₀.types.gather (w₀.types.lineage b.id) [c] := by
  have hw₀ : w₀.types.Numbered := h.numbered_layers.2.2.2
  have hgrown : TypeTable.Numbered ([t] ++ w₀.types) := h.numbered_layers
  -- the proxy names the capability alone, so this is found before anything else
  have hfirst : TypeTable.collect (t :: w₀.types) .capability [] = [c] := by
    rw [← hcollect]
    exact TypeTable.collect_append (fun s => hgrown.ne_of_mem (hid ▸ hw₀.index_lt hmem)) []
  rw [TypeTable.allInterfaces_eq, h.lineage_eq, TypeTable.gather_cons, h.proxy.interfaces]
  change TypeTable.gather _ _ (TypeTable.collect (t :: w₀.types) .capability []) = _
  rw [hfirst]
  refine TypeTable.gather_congr fun s hs i hi found => ?_
  refine TypeTable.collect_append (fun u => hgrown.ne_of_mem ?_) found
  exact (hw₀.names_lt (TypeTable.mem_of_mem_lineage hs)).2 i hi

/-- Without interfaces, a subtype adds the methods of its proxy to those of its bridge, and the operation
of the capability. -/
theorem find?_methodsOf (h : w.Stands e older w₀ base [] properties b t)
    (hP : ∀ m : Method, m.slot = capabilitySlot → P m = false) :
    (w.types.methodsOf t.id).find? P = (t.methods.find? P).or ((w₀.types.methodsOf b.id).find? P) := by
  obtain ⟨new, hnew⟩ := h.grown
  have hlayers := h.numbered_layers
  have hall : w.types.methodsOf t.id = TypeTable.methodsOf (t :: w₀.types) t.id := by
    have hnumbered : TypeTable.Numbered (new ++ (t :: w₀.types)) := hnew ▸ h.numbered
    rw [← hnew, hnumbered.methodsOf_append (hlayers.index_lt List.mem_cons_self)]
  have hw₀ : w₀.types.Numbered := hlayers.2.2.2
  have hstart : TypeTable.initial <:+ w₀.types := h.types ▸ h.start.trans (List.suffix_cons b older)
  obtain ⟨c, hc, hcollect, hcnone, hcmethods⟩ := hw₀.lookup?_capability hstart
  obtain ⟨hcmem, hcid⟩ := TypeTable.mem_of_lookup? hc
  -- the interface of the capability comes first, which matters for no other operation
  have hsame := hw₀.find?_gather hcmem hcnone (w₀.types.lineage b.id) fun m hm => hP m (hcmethods m hm).1
  rw [hall, TypeTable.methodsOf, h.lineage_eq, h.allInterfaces_eq hcid hcmem hcollect,
    TypeTable.methodsOf, TypeTable.allInterfaces_eq, List.flatMap_cons, List.append_assoc,
    List.find?_append, List.find?_append, hsame, ← List.find?_append]

variable {operations : List Method}

/-- A search that takes no operation of the table finds on a subtype what it finds on the base. -/
theorem find?_methodsOf_of_none (h : w.Stands e older w₀ base [] [] b t)
    (hoperations : (w.types.proxy? t.id).map (·.operations) = some operations)
    (hsuper : base.isInterface = true → base.superclass = none) (hP : Emitter.Searches operations P)
    (hnone : operations.find? P = none) :
    (w.types.methodsOf t.id).find? P = (w.types.methodsOf base.id).find? P := by
  rw [h.operations] at hoperations
  obtain rfl := Option.some.inj hoperations
  have hbridge : b.methods.find? P = none := by
    rw [List.find?_eq_none] at hnone ⊢
    exact fun n hn => hnone n (h.bridge.mem_harvest h.types h.numbered_layers.2.2.2 h.start h.base
      hsuper hn)
  rw [h.find?_methodsOf hP.capability, h.proxy.find?_methods_of_none hP hnone, Option.none_or,
    h.bridge.methodsOf_eq h.types h.numbered_layers.2.2.2 h.start h.base hsuper, List.find?_append,
    hbridge, Option.none_or, ← h.methodsOf_base]

/-- A search that takes operations of the table finds on a subtype the thunk of the first of these. -/
theorem find?_methodsOf_of_some {k : Method} (h : w.Stands e older w₀ base [] properties b t)
    (hoperations : (w.types.proxy? t.id).map (·.operations) = some operations)
    (hP : Emitter.Searches operations P) (hk : operations.find? P = some k) :
    ∃ n thunk, operations[n]? = some k ∧ t.methods[2 * n]? = some thunk ∧
      (w.types.methodsOf t.id).find? P = some thunk := by
  rw [h.operations] at hoperations
  obtain rfl := Option.some.inj hoperations
  obtain ⟨n, thunk, hn, hthunk, hfirst⟩ := h.proxy.find?_methods_of_some hP hk
  refine ⟨n, thunk, hn, hthunk, ?_⟩
  rw [h.find?_methodsOf hP.capability, hfirst, Option.some_or]

end World.Stands

end Interpose
