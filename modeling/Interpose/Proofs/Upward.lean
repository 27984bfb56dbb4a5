import Interpose.Proofs.Lookups

/-!
# How the way up ends

From a proxy the way up of an operation leads to a stub of the bridge, which raises, to a body that was declared
before, or to nothing. The types that were there before tell which of these it is. The interfaces with
properties count in the order in which they are given: a stub stands for what is found first to be
abstract, and a call reaches what is found first.
-/

namespace Interpose

variable {e : Emitter} {types : TypeTable} {base b : HostType} {properties properties' extra : List TypeId}
  {pairs : List PropertyPair} {op m : Method} {s : Slot}

/-! ## Ends -/

/-- How the way up from a proxy ends: with nothing to run, with a stub, or with a body that was declared. -/
inductive Layer.Ending where
  | nowhere
  | stub
  | body (m : Method)

/-- Whether the way up of an operation from a proxy on a bridge ends like that. A stub is what an emitter makes of
the body that raises for an abstract operation. -/
inductive Emitter.EndsIn (e : Emitter) (types : TypeTable) (b : HostType) (op : Method) : Layer.Ending → Prop
  | nowhere (h : Layer.superTarget? types b.id op = none) : EndsIn e types b op .nowhere
  | stub {m a : Method} {d : MethodDef} (h : Layer.superTarget? types b.id op = some m) (hm : m ∈ b.methods)
      (hd : Layer.stub b.name a = .ok d) (hmade : e.method b.id b.name d = .ok m) : EndsIn e types b op .stub
  | body {m : Method} (h : Layer.superTarget? types b.id op = some m) (hm : m ∉ b.methods) :
      EndsIn e types b op (.body m)

/-- The way up ends in one way only. -/
theorem Emitter.EndsIn.unique {x y : Layer.Ending} (hx : e.EndsIn types b op x) (hy : e.EndsIn types b op y) :
    x = y := by
  cases hx with
  | nowhere h =>
      cases hy with
      | nowhere => rfl
      | stub h' | body h' => cases h.symm.trans h'
  | stub h hm =>
      cases hy with
      | nowhere h' => cases h.symm.trans h'
      | stub => rfl
      | body h' hm' =>
          cases h.symm.trans h'
          exact absurd hm hm'
  | body h hm =>
      cases hy with
      | nowhere h' => cases h.symm.trans h'
      | stub h' hm' =>
          cases h.symm.trans h'
          exact absurd hm' hm
      | body h' =>
          cases h.symm.trans h'
          rfl

/-- How the way up ends for a slot, told from the types below which the layers are built. -/
def TypeTable.ending (types : TypeTable) (base : HostType) (properties : List TypeId) (s : Slot) :
    Layer.Ending :=
  if (types.harvestAbstract base.id properties).any fun m => m.isVirtual && m.occupies s then .stub
  else match (types.reached? base (Layer.bridgeInterfaces base properties) s).filter (!·.isAbstract) with
    | none => .nowhere
    | some m => .body m

/-- What redefines an operation is not abstract. -/
theorem Layer.isAbstract_overrideModifiers (op : Method) : (overrideModifiers op).isAbstract = false := by
  rw [overrideModifiers, Modifiers.isAbstract, Modifiers.contains, Modifiers.without, UInt16.and_assoc]
  have hnone : ~~~Modifiers.abstract.bits &&& Modifiers.abstract.bits = 0 := by decide
  rw [hnone, UInt16.and_zero]
  decide

/-- A stub has a body. -/
theorem Layer.isAbstract_of_stub {owner name : String} {id : TypeId} {d : MethodDef}
    (hd : Layer.stub owner op = .ok d) (hm : e.method id name d = .ok m) : m.isAbstract = false := by
  obtain ⟨_, -, rfl⟩ := Emitter.method_eq_ok.1 hm
  rw [Method.isAbstract, (stub_eq_ok hd).2, isAbstract_overrideModifiers]
  rfl

/-- A thunk has a body. -/
theorem Emitter.Proxy.isAbstract_thunk {w₀ : World} {bridge : HostType} {operations : List Method}
    {requested : List TypeId} {t : HostType} {thunk : Method} {n : Nat}
    (ht : e.Proxy w₀ bridge base operations requested t) (hop : operations[n]? = some op)
    (hthunk : t.methods[2 * n]? = some thunk) : thunk.isAbstract = false := by
  obtain ⟨_, _, -, -, hmethod⟩ := ht.dispatching hop
  rw [hmethod] at hthunk
  cases hthunk
  rw [Method.isAbstract, Layer.isAbstract_overrideModifiers]
  rfl

namespace Emitter.BuiltBridge

section

variable (h : e.BuiltBridge types base properties pairs b)
  (hopen : ∀ n ∈ b.methods, n.slot = s → n.modifiers.isFinal = false)

include h hopen

/-- The methods that a bridge has for a slot are stubs if none of them is final. -/
theorem stub_of_slot {n : Method} (hn : n ∈ b.methods) (hslot : n.slot = s) :
    ∃ a ∈ types.harvestAbstract base.id properties, n.slot = a.slot ∧
      n.modifiers = Layer.overrideModifiers a ∧
      ∃ d, Layer.stub b.name a = .ok d ∧ e.method b.id b.name d = .ok n := by
  refine (h.method_cases hn).resolve_left fun hfinal => ?_
  rw [hopen n hn hslot] at hfinal
  cases hfinal.1

/-- A call on a bridge reaches its stub of a slot that is left without a body. -/
theorem exists_find?_of_abstract
    (hstub : ∃ a ∈ types.harvestAbstract base.id properties, (a.isVirtual && a.occupies s) = true) :
    ∃ k a d, b.methods.find? (fun m => m.isVirtual && m.occupies s) = some k ∧ k ∈ b.methods ∧
      Layer.stub b.name a = .ok d ∧ e.method b.id b.name d = .ok k := by
  obtain ⟨a, ha, hreached⟩ := hstub
  obtain ⟨hvirtual, rfl⟩ := Method.and_occupies_iff.1 hreached
  have hunclaimed : Layer.isClaimed pairs a = false := by
    rw [Bool.eq_false_iff]
    intro hclaimed
    obtain ⟨n, hn, hslot, hown⟩ := h.exists_own (Layer.isClaimed_iff.1 hclaimed)
    have hfinal := hopen n hn hslot
    rw [hown] at hfinal
    cases hfinal
  obtain ⟨n, hn, hslot, hmodifiers⟩ := h.exists_stub ha hunclaimed
  obtain ⟨k, hkmem, hk, hkreached⟩ := exists_find?_of_mem (q := fun m => m.isVirtual && m.occupies a.slot) hn
    (Method.and_occupies_iff.2 ⟨(Layer.isVirtual_of_modifiers hmodifiers).trans hvirtual, hslot⟩)
  obtain ⟨a, -, -, -, d, hd, hmade⟩ := h.stub_of_slot hopen hkmem (Method.and_occupies_iff.1 hkreached).2
  exact ⟨k, a, d, hk, hkmem, hd, hmade⟩

/-- A call on a bridge reaches no stub of another slot. -/
theorem not_reached_of_not_abstract
    (hnone : ¬∃ a ∈ types.harvestAbstract base.id properties, (a.isVirtual && a.occupies s) = true) :
    ∀ n ∈ b.methods, ¬(n.isVirtual && n.occupies s) = true := by
  intro n hn hreached
  obtain ⟨hvirtual, hnslot⟩ := Method.and_occupies_iff.1 hreached
  obtain ⟨a, ha, hslot, hmodifiers, -⟩ := h.stub_of_slot hopen hn hnslot
  refine hnone ⟨a, ha, Method.and_occupies_iff.2 ⟨?_, hslot.symm.trans hnslot⟩⟩
  exact (Layer.isVirtual_of_modifiers hmodifiers).symm.trans hvirtual

end

/-- The way up ends as the types tell that were there before. -/
theorem endsIn (h : e.BuiltBridge types base properties pairs b) (hnumbered : TypeTable.Numbered (b :: types))
    (hop : op ∈ TypeTable.harvest (b :: types) b.id extra) :
    e.EndsIn (b :: types) b op (types.ending base properties op.slot) := by
  have hself : b ∈ TypeTable.lineage (b :: types) b.id := by
    rw [h.isBridge.lineage_cons]
    exact List.mem_cons_self
  -- what is taken over has no final declaration, so that the bridge has at most a stub of it
  have hopen : ∀ n ∈ b.methods, n.slot = op.slot → n.modifiers.isFinal = false := fun n hn hslot =>
    (hnumbered.mem_slots_harvest.1 (List.mem_map_of_mem hop)).2 n ⟨b, .inl hself, hn⟩ hslot
  have htarget : Layer.superTarget? (b :: types) b.id op =
      ((b.methods.find? fun m => m.isVirtual && m.occupies op.slot).or
        (types.reached? base (Layer.bridgeInterfaces base properties) op.slot)).filter (!·.isAbstract) := by
    rw [Layer.superTarget?, h.isBridge.findVirtual?_eq hnumbered]
  rw [TypeTable.ending]
  split
  · rename_i hstub
    obtain ⟨k, a, d, hk, hkmem, hd, hmade⟩ := h.exists_find?_of_abstract hopen (List.any_eq_true.1 hstub)
    refine .stub ?_ hkmem hd hmade
    rw [htarget, hk, Option.some_or, Option.filter_some, Layer.isAbstract_of_stub hd hmade]
    rfl
  · rename_i hnone
    rw [List.any_eq_true] at hnone
    have hother := h.not_reached_of_not_abstract hopen hnone
    rw [List.find?_eq_none.2 hother, Option.none_or] at htarget
    split
    · rename_i hnowhere
      exact .nowhere (htarget.trans hnowhere)
    · rename_i m hm
      have hreached := (Option.filter_eq_some_iff.1 hm).1
      rw [TypeTable.reached?] at hreached
      have hfound := List.find?_some hreached
      exact .body (htarget.trans hm) fun hmem => hother m hmem hfound

end Emitter.BuiltBridge

/-! ## The order of interfaces -/

/-- Lists of the same members have the same first item of a kind if there is only one of that kind. -/
theorem find?_congr_of_unique {α : Type} {q : α → Bool} {l l' : List α} (hsame : ∀ a, a ∈ l ↔ a ∈ l')
    (hunique : ∀ a ∈ l, ∀ a' ∈ l, q a = true → q a' = true → a = a') : l.find? q = l'.find? q := by
  cases h : l.find? q with
  | none =>
      rw [eq_comm, List.find?_eq_none]
      exact fun a ha => List.find?_eq_none.1 h a ((hsame a).2 ha)
  | some a =>
      have ha := List.mem_of_find?_eq_some h
      have hqa := List.find?_some h
      obtain ⟨a', ha', h', hqa'⟩ := exists_find?_of_mem ((hsame a).1 ha) hqa
      rw [h', hunique a ha a' ((hsame a').2 ha') hqa hqa']

namespace TypeTable

variable {stack rest : List TypeId} {found : List HostType} {i : TypeId} {t : HostType}

/-- A search goes through the types that wait one after the other. -/
theorem extendFound_append_stack : types.extendFound (stack ++ rest) found =
    types.extendFound rest (types.extendFound stack found) := by
  fun_induction extendFound types stack found with
  | case1 found => rfl
  | case2 found id stack hnone ih =>
      rw [List.cons_append, ← ih, extendFound]
      split
      · rfl
      · rename_i t ht
        cases hnone.symm.trans ht
  | case3 found id stack t ht hold ih => rw [List.cons_append, ← ih, extendFound_cons_of_found ht hold]
  | case4 found id stack t ht hnew ih =>
      rw [List.cons_append, ← ih, extendFound_cons ht (Bool.eq_false_iff.2 hnew), List.append_assoc]

/-- A type that waits is found. -/
theorem any_extendFound (hi : i ∈ stack) (ht : types.lookup? i = some t) :
    (types.extendFound stack found).any (·.id == t.id) = true := by
  fun_induction extendFound types stack found with
  | case1 found => cases hi
  | case2 found id stack hnone ih =>
      rcases List.mem_cons.1 hi with rfl | hi
      · cases hnone.symm.trans ht
      · exact ih hi
  | case3 found id stack u hu hold ih =>
      rcases List.mem_cons.1 hi with rfl | hi
      · cases hu.symm.trans ht
        obtain ⟨v, hv, hid⟩ := List.any_eq_true.1 hold
        exact List.any_eq_true.2 ⟨v, mem_extendFound hv, hid⟩
      · exact ih hi
  | case4 found id stack u hu hnew ih =>
      rcases List.mem_cons.1 hi with rfl | hi
      · cases hu.symm.trans ht
        exact List.any_eq_true.2 ⟨t, mem_extendFound (List.mem_append_right _ List.mem_cons_self),
          beq_self_eq_true _⟩
      · exact ih (List.mem_append_right _ hi)

/-- Repetitions make no difference to a search. -/
theorem extendFound_dedupIds (ids : List TypeId) (found : List HostType) :
    types.extendFound (dedupIds ids) found = types.extendFound ids found := by
  -- for any list that was kept before, since the fold starts with longer and longer ones
  have hfold : ∀ ids kept : List TypeId, types.extendFound (ids.foldl (fun kept id =>
      if kept.contains id then kept else kept ++ [id]) kept) found = types.extendFound (kept ++ ids) found := by
    intro ids
    induction ids with
    | nil => exact fun kept => by rw [List.foldl_nil, List.append_nil]
    | cons id ids ih =>
        intro kept
        rw [List.foldl_cons, ih]
        split
        · rename_i hkept
          rw [extendFound_append_stack, extendFound_append_stack, extendFound]
          split
          · rfl
          · rename_i t ht
            rw [dif_pos (any_extendFound (List.contains_iff_mem.1 hkept) ht)]
        · rw [List.append_assoc, List.singleton_append]
  exact hfold ids []

/-- How the way up ends depends on where an interface is named first. -/
theorem ending_eq_of_dedupIds (h : dedupIds properties' = dedupIds properties) :
    types.ending base properties' s = types.ending base properties s := by
  have hfound (found : List HostType) : types.extendFound properties' found =
      types.extendFound properties found := by
    rw [← extendFound_dedupIds properties', h, extendFound_dedupIds]
  have hcons (ids : List TypeId) : types.extendFound (base.id :: ids) [] =
      types.extendFound ids (types.extendFound [base.id] []) := by
    rw [← extendFound_append_stack]
    rfl
  have hbridge (rest : List TypeId) :
      types.extendFound (Layer.bridgeInterfaces base properties' ++ rest) [] =
        types.extendFound (Layer.bridgeInterfaces base properties ++ rest) [] := by
    rw [extendFound_append_stack, extendFound_append_stack, Layer.bridgeInterfaces, Layer.bridgeInterfaces]
    split
    · rw [hcons properties', hcons properties, hfound]
    · rw [hfound]
  rw [ending, ending, harvestAbstract, harvestAbstract, harvest, harvest, interfaceList, interfaceList, hfound,
    reached?, reached?, hbridge]

/-- An operation is left without a body exactly if no declaration of its slot is final and the first one that may
be taken over is abstract. -/
theorem exists_harvestAbstract_iff {id : TypeId} :
    (∃ a ∈ types.harvestAbstract id properties, (a.isVirtual && a.occupies s) = true) ↔
      (∀ m ∈ (types.lineage id ++ types.interfaceList id properties).flatMap (·.methods), m.slot = s →
        m.modifiers.isFinal = false) ∧
      ∃ a, ((types.lineage id ++ types.interfaceList id properties).flatMap (·.methods)).find?
        (fun m => m.isOffered && m.occupies s) = some a ∧ a.isVirtual = true ∧ a.isAbstract = true := by
  simp only [harvestAbstract, harvest, List.mem_filter, mem_intercept, Method.and_occupies_iff]
  constructor
  · rintro ⟨a, ⟨⟨hopen, hfirst⟩, habstract⟩, hvirtual, rfl⟩
    exact ⟨hopen, a, hfirst, hvirtual, habstract⟩
  · rintro ⟨hopen, a, hfirst, hvirtual, habstract⟩
    have hfound := List.find?_some hfirst
    obtain rfl := (Method.and_occupies_iff.1 hfound).2
    exact ⟨a, ⟨⟨hopen, hfirst⟩, habstract⟩, hvirtual, rfl⟩

/-- What is reached above a layer is looked for among what is declared above it. -/
theorem mem_reached_sources {named : List TypeId} :
    m ∈ (types.lineage (Layer.bridgeSuperclass base) ++ types.extendFound (named ++
      (types.lineage (Layer.bridgeSuperclass base)).flatMap (·.interfaces)) []).flatMap (·.methods) ↔
      types.Above base named m := by
  rw [List.mem_flatMap]
  refine exists_congr fun t => and_congr_left fun _ => ?_
  rw [List.mem_append, mem_extendFound_nil]

/-- Whether the order of interfaces tells nothing about a slot: the class chain has an operation of it that may be
taken over, or there is one declaration only, or none has a body. -/
def Settled (types : TypeTable) (base : HostType) (properties : List TypeId) (s : Slot) : Prop :=
  (∃ m ∈ (types.lineage (Layer.bridgeSuperclass base)).flatMap (·.methods), m.slot = s ∧ m.isOffered = true ∧
    m.isVirtual = true) ∨
  ∀ m, types.Declares base.id properties m → m.slot = s → m.isAbstract = false ∨ m.isVirtual = false →
    ∀ m', types.Declares base.id properties m' → m'.slot = s → m' = m

section

variable (h : types.Numbered) (hstart : initial <:+ types) (hbase : types.lookup? base.id = some base)
  (hsame : ∀ i, i ∈ properties' ↔ i ∈ properties)

theorem ending_congr
    (hstub : (∃ a ∈ types.harvestAbstract base.id properties', (a.isVirtual && a.occupies s) = true) ↔
      ∃ a ∈ types.harvestAbstract base.id properties, (a.isVirtual && a.occupies s) = true)
    (hreached : (types.reached? base (Layer.bridgeInterfaces base properties') s).filter (!·.isAbstract) =
      (types.reached? base (Layer.bridgeInterfaces base properties) s).filter (!·.isAbstract)) :
    types.ending base properties' s = types.ending base properties s := by
  rw [← List.any_eq_true, ← List.any_eq_true] at hstub
  rw [ending, ending, hreached, Bool.eq_iff_iff.2 hstub]

include h hstart in
/-- What the class chain has comes before all interfaces. -/
theorem Numbered.ending_eq_of_chain
    (hopen : ∀ m, types.Declares base.id properties' m ↔ types.Declares base.id properties m)
    (hm : m ∈ (types.lineage (Layer.bridgeSuperclass base)).flatMap (·.methods)) (hoffered : m.isOffered = true)
    (hvirtual : m.isVirtual = true) :
    types.ending base properties' m.slot = types.ending base properties m.slot := by
  have hchain : types.lineage (Layer.bridgeSuperclass base) = types.lineage base.id := by
    rw [Layer.bridgeSuperclass] at hm ⊢
    split at hm
    · obtain ⟨r, hroot, hnone, -⟩ := h.lineage_root hstart
      rw [hroot, List.flatMap_cons, hnone] at hm
      cases hm
    · rename_i hclass
      rw [if_neg hclass]
  obtain ⟨a, -, ha, -⟩ := exists_find?_of_mem (q := fun n => n.isOffered && n.occupies m.slot) hm
    (Method.and_occupies_iff.2 ⟨hoffered, rfl⟩)
  obtain ⟨k, -, hk, -⟩ := exists_find?_of_mem (q := fun n => n.isVirtual && n.occupies m.slot) hm
    (Method.and_occupies_iff.2 ⟨hvirtual, rfl⟩)
  refine ending_congr ?_ ?_
  · simp only [exists_harvestAbstract_iff, h.mem_sources, hopen]
    rw [hchain] at ha
    rw [List.flatMap_append, List.flatMap_append, List.find?_append, List.find?_append, ha, Option.some_or,
      Option.some_or]
  · rw [reached?_of_chain hk, reached?_of_chain hk]

include h hstart hbase

/-- What is reached above a layer is declared by the base or by one of the interfaces. -/
theorem Numbered.declares_of_mem_reached
    (hm : m ∈ (types.lineage (Layer.bridgeSuperclass base) ++ types.extendFound
      (Layer.bridgeInterfaces base properties ++
        (types.lineage (Layer.bridgeSuperclass base)).flatMap (·.interfaces)) []).flatMap (·.methods)) :
    types.Declares base.id properties m := by
  rw [mem_reached_sources, ← List.append_nil (Layer.bridgeInterfaces base properties)] at hm
  have hdeclared := h.declares_of_above hstart hbase hm
  rwa [List.append_nil] at hdeclared

/-- If nothing has a body, the way up ends with a stub or nowhere. -/
theorem Numbered.ending_of_abstract (hall : ∀ m, types.Declares base.id properties m → m.slot = s →
      m.isAbstract = true ∧ m.isVirtual = true) :
    types.ending base properties s =
      if s ∈ (types.harvest base.id properties).map (·.slot) then .stub else .nowhere := by
  have hstub : (types.harvestAbstract base.id properties).any (fun m => m.isVirtual && m.occupies s) = true ↔
      s ∈ (types.harvest base.id properties).map (·.slot) := by
    simp only [List.any_eq_true, harvestAbstract, List.mem_filter, List.mem_map, Method.and_occupies_iff]
    constructor
    · rintro ⟨a, ⟨ha, -⟩, -, hslot⟩
      exact ⟨a, ha, hslot⟩
    · rintro ⟨a, ha, hslot⟩
      have hdeclared := h.mem_sources.1 (List.mem_of_find?_eq_some (mem_intercept.1 ha).2)
      obtain ⟨habstract, hvirtual⟩ := hall a hdeclared hslot
      exact ⟨a, ⟨ha, habstract⟩, hvirtual, hslot⟩
  have hnone : (types.reached? base (Layer.bridgeInterfaces base properties) s).filter (!·.isAbstract) =
      none := by
    rw [Option.filter_eq_none_iff]
    intro m hm
    rw [reached?] at hm
    have hfound := List.find?_some hm
    have hdeclared := h.declares_of_mem_reached hstart hbase (List.mem_of_find?_eq_some hm)
    rw [(hall m hdeclared (Method.and_occupies_iff.1 hfound).2).1]
    decide
  rw [ending, hnone]
  simp only [hstub]

include hsame

/-- If there is one declaration only, it is found wherever it is looked for. -/
theorem Numbered.ending_eq_of_unique
    (hunique : ∀ m, types.Declares base.id properties m → m.slot = s →
      ∀ m', types.Declares base.id properties m' → m'.slot = s → m' = m) :
    types.ending base properties' s = types.ending base properties s := by
  have hdeclares (m : Method) : types.Declares base.id properties' m ↔ types.Declares base.id properties m :=
    declares_congr hsame
  have hnamed (i : TypeId) : i ∈ Layer.bridgeInterfaces base properties' ↔
      i ∈ Layer.bridgeInterfaces base properties := by
    rw [Layer.mem_bridgeInterfaces, Layer.mem_bridgeInterfaces, hsame]
  have hfirst {q : Method → Bool} {l l' : List Method} (hl : ∀ m, m ∈ l' ↔ m ∈ l)
      (hdeclared : ∀ m ∈ l, types.Declares base.id properties m) :
      l'.find? (fun m => q m && m.occupies s) = l.find? (fun m => q m && m.occupies s) :=
    (find?_congr_of_unique (fun m => (hl m).symm) fun m hm m' hm' hq hq' =>
      hunique m' (hdeclared m' hm') (Method.and_occupies_iff.1 hq').2 m (hdeclared m hm)
        (Method.and_occupies_iff.1 hq).2).symm
  refine ending_congr ?_ ?_
  · simp only [exists_harvestAbstract_iff, h.mem_sources, hdeclares]
    rw [hfirst (fun m => by rw [h.mem_sources, h.mem_sources, hdeclares]) fun m => h.mem_sources.1]
  · rw [reached?, reached?, hfirst (fun m => ?_) fun m => h.declares_of_mem_reached hstart hbase]
    rw [mem_reached_sources, mem_reached_sources, above_congr hnamed]

/-- The order of interfaces makes no difference to how the way up ends for a slot about which it tells
nothing. -/
theorem Numbered.ending_eq_of_settled (hsettled : types.Settled base properties s) :
    types.ending base properties' s = types.ending base properties s := by
  have hdeclares (m : Method) : types.Declares base.id properties' m ↔ types.Declares base.id properties m :=
    declares_congr hsame
  rcases hsettled with ⟨m, hm, rfl, hoffered, hvirtual⟩ | honly
  · exact h.ending_eq_of_chain hstart hdeclares hm hoffered hvirtual
  by_cases hbody : ∃ m, types.Declares base.id properties m ∧ m.slot = s ∧
      (m.isAbstract = false ∨ m.isVirtual = false)
  · obtain ⟨m, hm, hslot, hbody⟩ := hbody
    have hall := honly m hm hslot hbody
    exact h.ending_eq_of_unique hstart hbase hsame fun a ha haslot a' ha' haslot' =>
      (hall a' ha' haslot').trans (hall a ha haslot).symm
  · have hall : ∀ m, types.Declares base.id properties m → m.slot = s →
        m.isAbstract = true ∧ m.isVirtual = true := by
      intro m hm hslot
      have hnot : ¬(m.isAbstract = false ∨ m.isVirtual = false) := fun hbody' => hbody ⟨m, hm, hslot, hbody'⟩
      simpa only [not_or, Bool.not_eq_false] using hnot
    have hslots : s ∈ (types.harvest base.id properties').map (·.slot) ↔
        s ∈ (types.harvest base.id properties).map (·.slot) := by
      rw [h.mem_slots_harvest, h.mem_slots_harvest]
      simp only [hdeclares]
    rw [h.ending_of_abstract hstart hbase hall,
      h.ending_of_abstract hstart hbase fun m hm => hall m ((hdeclares m).1 hm)]
    simp only [hslots]

end

end TypeTable

end Interpose
