import Interpose.Proofs.Tables

/-!
# What calls reach above layers

Calls on an object of a subtype look through the methods of its two layers, then through the class chain above
them and then through the interfaces, those of the proxy first. So what they reach above the layers is told by
the types that were there before.
-/

namespace Interpose

/-! ## Searches in a growing table -/

namespace TypeTable

variable {new types : TypeTable} {stack : List TypeId} {found : List HostType} {id : TypeId}

/-- A table says the same about what is found when it grows. -/
theorem Numbered.extendFound_append (h : Numbered (new ++ types))
    (hstack : ∀ i ∈ stack, i.index < types.length) :
    extendFound (new ++ types) stack found = types.extendFound stack found := by
  fun_induction extendFound types stack found with
  | case1 found => rw [extendFound]
  | case2 found id stack hnone ih =>
      obtain ⟨hid, hstack⟩ := List.forall_mem_cons.1 hstack
      rw [← ih hstack, extendFound]
      split
      · rfl
      · rename_i t ht
        rw [h.lookup?_append hid, hnone] at ht
        cases ht
  | case3 found id stack t ht hold ih =>
      obtain ⟨hid, hstack⟩ := List.forall_mem_cons.1 hstack
      rw [← ih hstack, extendFound_cons_of_found ((h.lookup?_append hid).trans ht) hold]
  | case4 found id stack t ht hnew ih =>
      obtain ⟨hid, hstack⟩ := List.forall_mem_cons.1 hstack
      rw [← ih, extendFound_cons ((h.lookup?_append hid).trans ht) (Bool.eq_false_iff.2 hnew)]
      exact List.forall_mem_append.2 ⟨(h.of_append.names_lt (mem_of_lookup? ht).1).2, hstack⟩

/-- The interfaces of a type are found by one search. -/
theorem Numbered.allInterfaces_eq_extendFound (h : Numbered types) (id : TypeId) :
    types.allInterfaces id = types.extendFound ((types.lineage id).flatMap (·.interfaces)) [] := by
  have hlist := h.interfaceList_eq id []
  rwa [interfaceList, extendFound, List.append_nil] at hlist

/-- The operations of a type whose class chain starts with types that were added are theirs, and then those of
what was there before. -/
theorem Numbered.methodsOf_layers {layers chain : List HostType} (h : Numbered (layers ++ types))
    (hlineage : lineage (layers ++ types) id = layers ++ chain)
    (hnamed : ∀ i ∈ layers.flatMap (·.interfaces) ++ chain.flatMap (·.interfaces), i.index < types.length) :
    methodsOf (layers ++ types) id = layers.flatMap (·.methods) ++
      (chain ++ types.extendFound (layers.flatMap (·.interfaces) ++ chain.flatMap (·.interfaces))
        []).flatMap (·.methods) := by
  rw [methodsOf, h.allInterfaces_eq_extendFound, hlineage, List.flatMap_append, List.flatMap_append,
    List.flatMap_append, h.extendFound_append hnamed, List.append_assoc]

end TypeTable

/-! ## Layers -/

/-- What a call of a slot reaches above a layer on a base that names some interfaces: the first declaration of
the class chain, or of what is found from those interfaces and the ones of the class chain. -/
def TypeTable.reached? (types : TypeTable) (base : HostType) (named : List TypeId) (s : Slot) :
    Option Method :=
  let chain := types.lineage (Layer.bridgeSuperclass base)
  ((chain ++ types.extendFound (named ++ chain.flatMap (·.interfaces)) []).flatMap (·.methods)).find?
    fun m => m.isVirtual && m.occupies s

/-- What is in the class chain above a layer is reached there. -/
theorem TypeTable.reached?_of_chain {types : TypeTable} {base : HostType} {named : List TypeId} {s : Slot}
    {m : Method}
    (h : ((types.lineage (Layer.bridgeSuperclass base)).flatMap (·.methods)).find?
      (fun m => m.isVirtual && m.occupies s) = some m) : types.reached? base named s = some m := by
  rw [reached?, List.flatMap_append, List.find?_append, h, Option.some_or]

namespace TypeTable

variable {new types : TypeTable} {base : HostType} {named : List TypeId} {s : Slot}

/-- What a layer on a base extends is there if the base is. -/
theorem index_bridgeSuperclass (hstart : initial <:+ types) (hid : base.id.index < types.length) :
    (Layer.bridgeSuperclass base).index < types.length := by
  rw [Layer.bridgeSuperclass]
  split
  · exact Nat.lt_of_lt_of_le (by decide) hstart.length_le
  · exact hid

/-- What a class chain names is there. -/
theorem Numbered.chain_names_lt (h : types.Numbered) (id : TypeId) :
    ∀ i ∈ (types.lineage id).flatMap (·.interfaces), i.index < types.length := by
  intro i hi
  obtain ⟨t, ht, hi⟩ := List.mem_flatMap.1 hi
  exact (h.names_lt (mem_of_mem_lineage ht)).2 i hi

/-- The class chain above a layer is the same in a table that grows. -/
theorem Numbered.chain_append (h : Numbered (new ++ types)) (hstart : initial <:+ types)
    (hid : base.id.index < types.length) : lineage (new ++ types) (Layer.bridgeSuperclass base) =
      types.lineage (Layer.bridgeSuperclass base) :=
  lineage_append fun _ => h.ne_of_mem (index_bridgeSuperclass hstart hid)

/-- What is reached above a layer is the same in a table that grows. -/
theorem Numbered.reached?_append (h : Numbered (new ++ types)) (hstart : initial <:+ types)
    (hid : base.id.index < types.length) (hnamed : ∀ i ∈ named, i.index < types.length) :
    reached? (new ++ types) base named s = types.reached? base named s := by
  rw [reached?, reached?, h.chain_append hstart hid,
    h.extendFound_append (List.forall_mem_append.2 ⟨hnamed, h.of_append.chain_names_lt _⟩)]

end TypeTable

variable {e : Emitter} {w w₀ : World} {types older : TypeTable} {base b t : HostType}
  {abstracts : List Method} {interfaces properties : List TypeId} {s : Slot}

namespace Emitter

/-- What a bridge and the class chain above it name is there. -/
theorem Bridge.named_lt (hb : Bridge types base abstracts properties b)
    (hnumbered : TypeTable.Numbered (b :: types)) :
    ∀ i ∈ Layer.bridgeInterfaces base properties ++
      (types.lineage (Layer.bridgeSuperclass base)).flatMap (·.interfaces), i.index < types.length := by
  refine List.forall_mem_append.2 ⟨fun i hi => hnumbered.2.2.1 i (hb.interfaces ▸ hi), fun i hi => ?_⟩
  obtain ⟨s, hs, hi⟩ := List.mem_flatMap.1 hi
  exact (hnumbered.2.2.2.names_lt (TypeTable.mem_of_mem_lineage hs)).2 i hi

/-- A call on a bridge reaches one of its methods, or what is above it. -/
theorem Bridge.findVirtual?_eq (hb : Bridge types base abstracts properties b)
    (hnumbered : TypeTable.Numbered (b :: types)) :
    TypeTable.findVirtual? (b :: types) b.id s =
      (b.methods.find? fun m => m.isVirtual && m.occupies s).or
        (types.reached? base (Layer.bridgeInterfaces base properties) s) := by
  have hgrown : TypeTable.Numbered ([b] ++ types) := hnumbered
  have hnamed : ∀ i ∈ [b].flatMap (·.interfaces) ++
      (types.lineage (Layer.bridgeSuperclass base)).flatMap (·.interfaces), i.index < types.length := by
    simp only [List.flatMap_cons, List.flatMap_nil, List.append_nil, hb.interfaces]
    exact hb.named_lt hnumbered
  have hall := hgrown.methodsOf_layers hb.lineage_cons hnamed
  rw [List.singleton_append] at hall
  rw [TypeTable.findVirtual?, hall]
  simp only [List.flatMap_cons, List.flatMap_nil, List.append_nil, hb.interfaces]
  rw [List.find?_append]
  rfl

/-- The class chain of a proxy is that of what its bridge extends, with both layers before it. -/
theorem Layers.lineage_eq (h : e.Layers older w₀ base interfaces properties b t) :
    TypeTable.lineage (t :: w₀.types) t.id = t :: b :: older.lineage (Layer.bridgeSuperclass base) := by
  rw [h.types, TypeTable.lineage, if_pos rfl, h.proxy.superclass]
  exact congrArg _ h.bridge.lineage_cons

/-- A call on a proxy reaches a method of one of the layers, or what is above them. -/
theorem Layers.findVirtual?_eq (h : e.Layers older w₀ base interfaces properties b t)
    (hnumbered : TypeTable.Numbered (t :: w₀.types)) (hstart : TypeTable.initial <:+ older)
    (hinterfaces : ∀ i ∈ interfaces, i.index < older.length) :
    TypeTable.findVirtual? (t :: w₀.types) t.id s =
      ((t.methods ++ b.methods).find? fun m => m.isVirtual && m.occupies s).or
        (older.reached? base (dedupIds interfaces ++ [.capability] ++ Layer.bridgeInterfaces base properties)
          s) := by
  have hlineage := h.lineage_eq
  rw [h.types] at hnumbered hlineage ⊢
  have hgrown : TypeTable.Numbered ([t, b] ++ older) := hnumbered
  have hnamed : ∀ i ∈ [t, b].flatMap (·.interfaces) ++
      (older.lineage (Layer.bridgeSuperclass base)).flatMap (·.interfaces), i.index < older.length := by
    have hbnamed := h.bridge.named_lt hnumbered.2.2.2
    simp only [List.flatMap_cons, List.flatMap_nil, List.append_nil, h.proxy.interfaces, List.append_assoc]
    refine List.forall_mem_append.2 ⟨fun i hi => hinterfaces i (mem_dedupIds.1 hi),
      List.forall_mem_append.2 ⟨?_, h.bridge.interfaces ▸ hbnamed⟩⟩
    exact List.forall_mem_singleton.2 hstart.length_le
  have hall := hgrown.methodsOf_layers hlineage hnamed
  rw [List.cons_append, List.singleton_append] at hall
  rw [TypeTable.findVirtual?, hall]
  simp only [List.flatMap_cons, List.flatMap_nil, List.append_nil, h.proxy.interfaces, h.bridge.interfaces]
  rw [List.find?_append]
  rfl

end Emitter

/-- The class chain of a subtype that stands starts with its layers. -/
theorem World.Stands.lineage_layers (h : w.Stands e older w₀ base interfaces properties b t) :
    w.types.lineage t.id = t :: b :: older.lineage (Layer.bridgeSuperclass base) := by
  obtain ⟨new, hnew⟩ := h.grown
  have hnumbered : TypeTable.Numbered (new ++ (t :: w₀.types)) := hnew ▸ h.numbered
  have hlt := h.numbered_layers.index_lt List.mem_cons_self
  rw [← h.toLayers.lineage_eq, ← hnew, TypeTable.lineage_append fun s => hnumbered.ne_of_mem hlt]

/-- A subtype that stands is below its bridge. -/
theorem World.Stands.bridge_mem_lineage (h : w.Stands e older w₀ base interfaces properties b t) :
    b ∈ w.types.lineage t.id := by
  rw [h.lineage_layers]
  exact List.mem_cons_of_mem _ List.mem_cons_self

/-- A call on a subtype that stands reaches a method of one of its layers, or what is above them. -/
theorem World.Stands.findVirtual?_eq (h : w.Stands e older w₀ base interfaces properties b t)
    (hinterfaces : ∀ i ∈ interfaces, i.index < older.length) :
    w.types.findVirtual? t.id s = ((t.methods ++ b.methods).find? fun m => m.isVirtual && m.occupies s).or
      (older.reached? base (dedupIds interfaces ++ [.capability] ++ Layer.bridgeInterfaces base properties)
        s) := by
  obtain ⟨new, hnew⟩ := h.grown
  have hnumbered : TypeTable.Numbered (new ++ (t :: w₀.types)) := hnew ▸ h.numbered
  rw [← h.toLayers.findVirtual?_eq h.numbered_layers h.start hinterfaces, ← hnew, TypeTable.findVirtual?,
    TypeTable.findVirtual?, hnumbered.methodsOf_append (h.numbered_layers.index_lt List.mem_cons_self)]

end Interpose
