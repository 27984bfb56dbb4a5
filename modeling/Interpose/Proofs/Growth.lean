import Interpose.Proofs.Lookups
import Interpose.Proofs.Orders

/-!
# Requests in growing tables

Whether a subtype can be generated is told by the types that the request names and those that they extend. So a
request is granted in a table exactly if it is granted in any other that grew from one with all of these, though
the layers that are emitted in both have other numbers.
-/

namespace Interpose

variable {e : Emitter} {w₁ w₂ w₃ : World} {new new' older : TypeTable} {base b b' t : HostType}
  {interfaces properties extra : List TypeId} {pairs : List PropertyPair} {m : Method} {s : Slot}

/-! ## Tables of operations -/

namespace TypeTable

/-- A table of operations is the same in a table of types that grows. -/
theorem Numbered.harvest_append (h : Numbered (new ++ older)) {id : TypeId} (hid : id.index < older.length)
    (hextra : ∀ i ∈ extra, i.index < older.length) :
    harvest (new ++ older) id extra = harvest older id extra := by
  rw [harvest, harvest, interfaceList, interfaceList, lineage_append fun s => h.ne_of_mem hid,
    h.allInterfaces_append hid, h.extendFound_append hextra]

theorem Numbered.harvestAbstract_append (h : Numbered (new ++ older)) {id : TypeId}
    (hid : id.index < older.length) (hextra : ∀ i ∈ extra, i.index < older.length) :
    harvestAbstract (new ++ older) id extra = harvestAbstract older id extra := by
  rw [harvestAbstract, harvestAbstract, h.harvest_append hid hextra]

/-- What is declared above a layer is the same in a table that grows. -/
theorem Numbered.above_iff_older (h : Numbered (new ++ older)) (hstart : initial <:+ older)
    (hid : base.id.index < older.length) (hextra : ∀ i ∈ extra, i.index < older.length) :
    Above (new ++ older) base extra m ↔ older.Above base extra m := by
  refine exists_congr fun t => and_congr_left fun _ => ?_
  rw [h.chain_append hstart hid, h.reaches_append]
  exact List.forall_mem_append.2 ⟨hextra, h.of_append.chain_names_lt _⟩

end TypeTable

section

variable (h : e.BuiltBridge (new ++ older) base properties pairs b)
  (hnumbered : TypeTable.Numbered (b :: (new ++ older))) (hstart : TypeTable.initial <:+ older)
  (hid : base.id.index < older.length) (hproperties : ∀ i ∈ properties, i.index < older.length)
  (hextra : ∀ i ∈ extra, i.index < older.length)

include h hnumbered hstart hid hproperties hextra

/-- A table above a bridge lists what the types say that were there before all that the table grew by. -/
theorem Emitter.BuiltBridge.mem_slots_iff_older :
    s ∈ (TypeTable.harvest (b :: (new ++ older)) b.id extra).map (·.slot) ↔
      (s ∈ (older.harvestAbstract base.id properties).map (·.slot) ∨
        ∃ m, older.Above base (Layer.bridgeInterfaces base properties ++ extra) m ∧ m.slot = s ∧
          m.isOffered = true) ∧
      (∀ m, older.Above base (Layer.bridgeInterfaces base properties ++ extra) m → m.slot = s →
        m.modifiers.isFinal = false) ∧
      s ∉ pairs.flatMap fun p => [p.getter.slot, p.setter.slot] := by
  have hgrown : TypeTable.Numbered (new ++ older) := hnumbered.2.2.2
  have hall : ∀ i ∈ extra, i.index < (new ++ older).length :=
    fun i hi => Nat.lt_of_lt_of_le (hextra i hi) (List.suffix_append new older).length_le
  have hnamed : ∀ i ∈ Layer.bridgeInterfaces base properties ++ extra, i.index < older.length := by
    intro i hi
    rcases List.mem_append.1 hi with hi | hi
    · rcases Layer.mem_bridgeInterfaces.1 hi with ⟨-, rfl⟩ | hi
      · exact hid
      · exact hproperties i hi
    · exact hextra i hi
  rw [h.mem_slots_iff_above hnumbered hall, hgrown.harvestAbstract_append hid hproperties]
  simp only [hgrown.above_iff_older hstart hid hnamed]

/-- Tables above bridges of one base are the same slot by slot, however the table of types grew. -/
theorem Emitter.BuiltBridge.slots_harvest_eq_of_older
    (h' : e.BuiltBridge (new' ++ older) base properties pairs b')
    (hnumbered' : TypeTable.Numbered (b' :: (new' ++ older))) :
    (TypeTable.harvest (b' :: (new' ++ older)) b'.id extra).map (·.slot) =
      (TypeTable.harvest (b :: (new ++ older)) b.id extra).map (·.slot) := by
  refine Gathering.Sorted.slots_eq (sorted_intercept _) (sorted_intercept _) fun s => ?_
  rw [h'.mem_slots_iff_older hnumbered' hstart hid hproperties hextra,
    h.mem_slots_iff_older hnumbered hstart hid hproperties hextra]

end

/-! ## Constructors that are forwarded -/

variable {code code' : Code}

namespace Code

/-- A position without a depth gets the one that it is reached with, if its instruction allows for it. -/
theorem explore_cons_of_none {depths : Array (Option Nat)} {pc depth : Nat} (hpc : pc < depths.size)
    (hnone : depths[pc] = none) (deepest : Nat) (rest : List (Nat × Nat)) :
    code.explore depths deepest ((pc, depth) :: rest) =
      match code.instrs[pc]? with
      | none => .error (pc, .fallsOffEnd)
      | some i =>
        match code.depthAfter depth i with
        | .error fault => .error (pc, fault)
        | .ok after =>
          match code.reached pc i with
          | .error fault => .error (pc, fault)
          | .ok next => code.explore (depths.set pc (some depth) hpc) (max deepest after)
              (next.map (·, after) ++ rest) := by
  rw [explore, dif_pos hpc]
  split
  · rename_i heq
    cases hnone.symm.trans heq
  · cases code.instrs[pc]? with
    | none => rfl
    | some i =>
        dsimp only
        cases code.depthAfter depth i with
        | error fault => rfl
        | ok after =>
            dsimp only
            split <;> simp only [*]

/-- Code with other constants is verified alike if its instructions have the same effects. -/
theorem explore_congr (hinstrs : code'.instrs = code.instrs)
    (heffects : ∀ i, code'.stackEffect i = code.stackEffect i) (depths : Array (Option Nat)) (deepest : Nat)
    (waiting : List (Nat × Nat)) :
    code'.explore depths deepest waiting = code.explore depths deepest waiting := by
  have hafter (depth : Nat) (i : Instr) : code'.depthAfter depth i = code.depthAfter depth i := by
    rw [depthAfter, depthAfter, heffects]
  have hreached (pc : Nat) (i : Instr) : code'.reached pc i = code.reached pc i := by
    rw [reached, reached, hinstrs]
  fun_induction code.explore depths deepest waiting with
  | case1 depths deepest => rw [explore]
  | case2 depths deepest pc rest hpc depth hknown ih =>
      rw [explore, dif_pos hpc, ← ih]
      split
      · rename_i known heq
        obtain rfl := Option.some.inj (hknown.symm.trans heq)
        exact if_pos rfl
      · rename_i heq
        cases hknown.symm.trans heq
  | case3 depths deepest pc depth rest hpc known hknown hne =>
      rw [explore, dif_pos hpc]
      split
      · rename_i known' heq
        obtain rfl := Option.some.inj (hknown.symm.trans heq)
        exact if_neg hne
      · rename_i heq
        cases hknown.symm.trans heq
  | case4 depths deepest pc depth rest hpc hnone hinstr =>
      rw [explore_cons_of_none hpc hnone, hinstrs, hinstr]
  | case5 depths deepest pc depth rest hpc hnone i hinstr fault hfault =>
      rw [explore_cons_of_none hpc hnone, hinstrs, hinstr]
      simp only [hafter, hfault]
  | case6 depths deepest pc depth rest hpc hnone i hinstr after hok fault hfault =>
      rw [explore_cons_of_none hpc hnone, hinstrs, hinstr]
      simp only [hafter, hok, hreached, hfault]
  | case7 depths deepest pc depth rest hpc hnone i hinstr after hok next hnext ih =>
      rw [explore_cons_of_none hpc hnone, hinstrs, hinstr]
      simp only [hafter, hok, hreached, hnext, ih]
  | case8 depths deepest pc depth rest hpc => rw [explore, dif_neg hpc]

theorem verify_congr (hname : code'.name = code.name) (hinstrs : code'.instrs = code.instrs)
    (heffects : ∀ i, code'.stackEffect i = code.stackEffect i) : code'.verify = code.verify := by
  rw [verify, verify, Code.depths, Code.depths, hname, hinstrs, explore_congr hinstrs heffects]

/-- Which constructor the one constant of a code is does not matter to its effects, but for the parameters. -/
theorem stackEffect_ctor {c c' : Constructor} (hparams : c'.params = c.params) (i : Instr) :
    ({ code with constants := #[.ctor c'] } : Code).stackEffect i =
      ({ code with constants := #[.ctor c] } : Code).stackEffect i := by
  have hconstant (n : UInt16) (sort : ConstantSort) (effect : Constant → Option StackEffect)
      (heffect : effect (.ctor c') = effect (.ctor c)) :
      ({ code with constants := #[.ctor c'] } : Code).constant n sort effect =
        ({ code with constants := #[.ctor c] } : Code).constant n sort effect := by
    rw [constant, constant]
    rcases n.toNat with _ | k
    · simp only [List.getElem?_toArray, List.getElem?_cons_zero, heffect]
    · simp only [List.getElem?_toArray, List.getElem?_cons_succ, List.getElem?_nil]
  cases i
  case invokeSuperCtor n => exact hconstant n _ _ (by simp only [hparams])
  case const n | getField n | putField n | checkCast n | invokeSuper n | newThrowable n =>
    exact hconstant n _ _ rfl
  all_goals rfl

end Code

namespace Layer

/-- The code that forwards to a constructor is told by the parameters, but for the constructor itself. -/
theorem forwardingCtor_eq (owner : String) (params : List ValueType) : ∃ code : Code, ∀ c : Constructor,
    c.params = params →
      forwardingCtor owner c = .ok ⟨params, c.modifiers, { code with constants := #[.ctor c] }⟩ := by
  have hloads (l : List Nat) (b : CodeBuilder) :
      (l.foldl (fun b i => b.load (UInt16.ofNat i)) b).branches = b.branches := by
    induction l generalizing b with
    | nil => rfl
    | cons i l ih => exact ih _
  obtain ⟨b, hb⟩ : ∃ b, b =
      (CodeBuilder.start (bodyName owner "<init>" params .void) params.length).loadAll params.length := ⟨_, rfl⟩
  have hconstants : b.constants = #[] := hb ▸ constants_loadAll _ _
  have hbranches : b.branches = [] := hb ▸ hloads _ _
  refine ⟨⟨b.name, b.arity, b.locals, (b.instrs.push (.invokeSuperCtor 0)).push .retVoid, #[]⟩, ?_⟩
  rintro c rfl
  have hfinish : ((b.invokeSuperCtor c).emit .retVoid).finish =
      .ok ⟨b.name, b.arity, b.locals, (b.instrs.push (.invokeSuperCtor 0)).push .retVoid, #[.ctor c]⟩ := by
    rw [CodeBuilder.finish, CodeBuilder.invokeSuperCtor, CodeBuilder.emitWith, CodeBuilder.emit, hbranches,
      hconstants]
    rfl
  rw [forwardingCtor]
  dsimp only
  rw [← hb, hfinish]
  rfl

end Layer

/-- An emitter takes code with other constants if its instructions have the same effects. -/
theorem Emitter.Takes.congr (h : e.Takes code) (hname : code'.name = code.name)
    (hinstrs : code'.instrs = code.instrs) (heffects : ∀ i, code'.stackEffect i = code.stackEffect i) :
    e.Takes code' := by
  obtain ⟨hverify, image, himage⟩ := h
  refine ⟨fun he => by rw [Code.verify_congr hname hinstrs heffects]; exact hverify he, ?_⟩
  rw [Emitter.image] at himage ⊢
  cases hbackend : e.backend with
  | weave => exact ⟨_, rfl⟩
  | assembly =>
      rw [hbackend] at himage
      have hencode : ByteCode.encode code' = ByteCode.encode code := by
        rw [ByteCode.encode, ByteCode.encode, hname, hinstrs]
      refine ⟨image, ?_⟩
      dsimp only at himage ⊢
      rw [ByteCode.assemble_eq_encode, hencode, ← ByteCode.assemble_eq_encode]
      exact himage

/-- Forwarding is taken alike for types whose constructors have the same parameters and modifiers. -/
theorem Layer.takes_forwardingCtors {owner : String} {t t' : HostType} {ctors ctors' : List CtorDef}
    (hsame : List.Forall₂ (fun c c' : Constructor => c'.params = c.params ∧ c'.modifiers = c.modifiers)
      t.constructors t'.constructors)
    (h : forwardingCtors owner t = .ok ctors) (h' : forwardingCtors owner t' = .ok ctors')
    (htakes : ∀ d ∈ ctors, e.Takes d.code) : ∀ d ∈ ctors', e.Takes d.code := by
  intro d' hd'
  obtain ⟨c', hc', hforwarded'⟩ := exists_of_forall₂ (forall₂_of_mapM h') hd'
  obtain ⟨hc', hopen'⟩ := List.mem_filter.1 hc'
  obtain ⟨c, hc, hparams, hmodifiers⟩ := exists_of_forall₂ hsame hc'
  rw [hmodifiers] at hopen'
  obtain ⟨d, hd, hforwarded⟩ := exists_of_forall₂ (forall₂_of_mapM h).flip (List.mem_filter.2 ⟨hc, hopen'⟩)
  obtain ⟨code, hcode⟩ := forwardingCtor_eq owner c.params
  obtain rfl := Except.ok.inj (hforwarded.symm.trans (hcode c rfl))
  obtain rfl := Except.ok.inj (hforwarded'.symm.trans (hcode c' hparams))
  exact (htakes _ hd).congr rfl rfl (Code.stackEffect_ctor hparams)

/-- The constructors of a layer on a base are defined alike in a table that grows. -/
theorem TypeTable.Numbered.ctorsOver_append (hnumbered : TypeTable.Numbered (new ++ older))
    (hstart : TypeTable.initial <:+ older) (hid : base.id.index < older.length) (owner : String) :
    Layer.ctorsOver (new ++ older) owner (Layer.bridgeSuperclass base) =
      Layer.ctorsOver older owner (Layer.bridgeSuperclass base) := by
  rw [Layer.ctorsOver, Layer.ctorsOver, hnumbered.lookup?_append (TypeTable.index_bridgeSuperclass hstart hid)]

/-- Bridges of one base have constructors of the same parameters and modifiers, however the table of types grew. -/
theorem Emitter.BuiltBridge.constructors_of_older (h : e.BuiltBridge (new ++ older) base properties pairs b)
    (hnumbered : TypeTable.Numbered (new ++ older)) (hstart : TypeTable.initial <:+ older)
    (hid : base.id.index < older.length) (h' : e.BuiltBridge (new' ++ older) base properties pairs b')
    (hnumbered' : TypeTable.Numbered (new' ++ older)) :
    List.Forall₂ (fun c c' : Constructor => c'.params = c.params ∧ c'.modifiers = c.modifiers)
      b.constructors b'.constructors := by
  obtain ⟨d, hd, hb⟩ := h.bridge
  obtain ⟨d', hd', hb'⟩ := h'.bridge
  obtain ⟨_, _, ctors, -, -, hctors, rfl⟩ := Layer.bridgeDef_eq_ok_iff.1 hd
  obtain ⟨_, _, ctors', -, -, hctors', rfl⟩ := Layer.bridgeDef_eq_ok_iff.1 hd'
  rw [hnumbered'.ctorsOver_append hstart hid, ← hnumbered.ctorsOver_append hstart hid, hctors] at hctors'
  obtain rfl := Except.ok.inj hctors'
  have hmade := forall₂_of_mapM hb.constructors
  have hmade' := forall₂_of_mapM hb'.constructors
  refine (forall₂_trans hmade.flip hmade').imp fun c c' ⟨k, hc, hc'⟩ => ?_
  obtain ⟨_, -, rfl⟩ := map_eq_ok.1 hc
  obtain ⟨_, -, rfl⟩ := map_eq_ok.1 hc'
  exact ⟨rfl, rfl⟩

/-! ## Requests -/

section

variable (h : e.Built (new ++ older) base interfaces properties pairs b t)
  (hnumbered : TypeTable.Numbered (new ++ older)) (hnumbered' : TypeTable.Numbered (new' ++ older))
  (hstart : TypeTable.initial <:+ older) (hbase : older.lookup? base.id = some base)
  (hdeclared : ∀ i ∈ base.id :: (interfaces ++ properties), i.index < older.length)

include h hnumbered hnumbered' hstart hbase hdeclared

/-- A bridge that is built in a table can be defined in any other that grew from one with its base. -/
theorem Emitter.Built.exists_bridgeDef_of_older :
    ∃ d, Layer.bridgeDef (new' ++ older) base (TypeTable.harvestAbstract (new' ++ older) base.id properties) pairs
        properties = .ok d ∧ d.validate (new' ++ older) = .ok () ∧ ∀ c ∈ d.codes, e.Takes c := by
  obtain ⟨hid, hasked⟩ := List.forall_mem_cons.1 hdeclared
  have hgrown {new : TypeTable} : TypeTable.initial <:+ new ++ older := hstart.trans (List.suffix_append _ _)
  obtain ⟨d, hd, hb⟩ := h.bridge
  obtain ⟨d', hd', hmethods⟩ := Layer.exists_bridgeDef (new' ++ older) base
    (TypeTable.harvestAbstract (new' ++ older) base.id properties) pairs properties
  refine ⟨d', hd', ?_, ClassDef.forall_mem_codes.2
    ⟨fun c hc => ?_, fun m hm => Emitter.takes_of_leads (hmethods m hm) e⟩⟩
  · have hpairs := TypeTable.pairs_of_harvestProperties h.paired
    obtain ⟨hopen, hall⟩ := (Layer.validate_bridgeDef_iff hd hpairs
      ((sorted_intercept _).sublist List.filter_sublist) hnumbered hgrown
      ((hnumbered.lookup?_append hid).trans hbase)).1 hb.valid
    refine (Layer.validate_bridgeDef_iff hd' hpairs ((sorted_intercept _).sublist List.filter_sublist) hnumbered'
      hgrown ((hnumbered'.lookup?_append hid).trans hbase)).2 ⟨hopen, fun i hi u hu => hall i hi u ?_⟩
    have hi := hasked i (List.mem_append_right _ hi)
    rw [hnumbered.lookup?_append hi, ← hnumbered'.lookup?_append hi]
    exact hu
  · obtain ⟨_, _, ctors, -, -, hctors, rfl⟩ := Layer.bridgeDef_eq_ok_iff.1 hd
    obtain ⟨_, _, ctors', -, -, hctors', rfl⟩ := Layer.bridgeDef_eq_ok_iff.1 hd'
    rw [hnumbered'.ctorsOver_append hstart hid, ← hnumbered.ctorsOver_append hstart hid, hctors] at hctors'
    obtain rfl := Except.ok.inj hctors'
    exact hb.takes c.code (List.mem_append_left _ (List.mem_map_of_mem hc))

/-- A proxy that is built in a table can be defined on a bridge in any other that grew from one with its base. -/
theorem Emitter.Built.exists_proxyDef_of_older (h' : e.BuiltBridge (new' ++ older) base properties pairs b') :
    ∃ d, Layer.proxyDef (b' :: (new' ++ older)) b' base (TypeTable.harvest (b' :: (new' ++ older)) b'.id
        (dedupIds interfaces ++ [.capability])) (dedupIds interfaces) = .ok d ∧
      d.validate (b' :: (new' ++ older)) = .ok () ∧ ∀ c ∈ d.codes, e.Takes c := by
  obtain ⟨hid, hasked⟩ := List.forall_mem_cons.1 hdeclared
  obtain ⟨hproperties, hextra⟩ := List.forall_mem_append.1 (TypeTable.index_lt_of_asked hstart hasked)
  have hgrown {new : TypeTable} : TypeTable.initial <:+ new ++ older := hstart.trans (List.suffix_append _ _)
  have hlarger {new : TypeTable} (i : TypeId) (hi : i.index < older.length) : i.index < (new ++ older).length :=
    Nat.lt_of_lt_of_le hi (List.suffix_append new older).length_le
  have hnumberedB := h.isBridge.numbered hnumbered hgrown ((hnumbered.lookup?_append hid).trans hbase)
    fun i hi => hlarger i (hproperties i hi)
  have hnumberedB' := h'.isBridge.numbered hnumbered' hgrown ((hnumbered'.lookup?_append hid).trans hbase)
    fun i hi => hlarger i (hproperties i hi)
  have hslots := h.slots_harvest_eq_of_older hnumberedB hstart hid hproperties hextra h' hnumberedB'
  obtain ⟨d, hd, ht⟩ := h.proxy
  obtain ⟨d', hd', hmethods⟩ := Layer.exists_proxyDef (b' :: (new' ++ older)) b' base (dedupIds interfaces)
    fun _ hop => Layer.thunkConstants_of_slots hd hslots hop
  refine ⟨d', hd', ?_, ClassDef.forall_mem_codes.2
    ⟨fun c hc => ?_, fun m hm => Emitter.takes_of_leads (hmethods m hm) e⟩⟩
  · have hstartB {b : HostType} {new : TypeTable} : TypeTable.initial <:+ b :: (new ++ older) :=
      hgrown.trans (List.suffix_cons b _)
    obtain ⟨hall, hnodup⟩ := (Layer.validate_proxyDef_iff hd (hnumberedB.lookup?_of_mem List.mem_cons_self)
      h.superclassFlaw?_eq_none hnumberedB hstartB).1 ht.valid
    refine (Layer.validate_proxyDef_iff hd' (hnumberedB'.lookup?_of_mem List.mem_cons_self)
      h'.superclassFlaw?_eq_none hnumberedB' hstartB).2 ⟨fun i hi u hu => hall i hi u ?_, by rwa [hslots]⟩
    have hlt := hasked i (List.mem_append_left _ (mem_dedupIds.1 hi))
    have hnumberedC : TypeTable.Numbered ((b :: new) ++ older) := hnumberedB
    have hnumberedC' : TypeTable.Numbered ((b' :: new') ++ older) := hnumberedB'
    exact (hnumberedC.lookup?_append hlt).trans ((hnumberedC'.lookup?_append hlt).symm.trans hu)
  · obtain ⟨_, ctors, -, hctors, rfl⟩ := Layer.proxyDef_eq_ok_iff.1 hd
    obtain ⟨_, ctors', -, hctors', rfl⟩ := Layer.proxyDef_eq_ok_iff.1 hd'
    refine Layer.takes_forwardingCtors (h.constructors_of_older hnumbered hstart hid h' hnumbered') hctors hctors'
      (fun d hd => ?_) c hc
    exact ht.takes d.code (List.mem_append_left _ (List.mem_map_of_mem hd))

end

namespace World

variable {p : PlatformId} {parent : Loader} {d : Option DispatcherId} {proxy : TypeId}

/-- A subtype that is generated in a world is generated in any other whose types grew from a table with all that
is asked for. -/
theorem exists_generate_of_older (hnumbered : w₁.types.Numbered) (hnumbered' : w₂.types.Numbered)
    (hset : w₂.SetsKnown) (holder : older <:+ w₁.types) (holder' : older <:+ w₂.types)
    (hstart : TypeTable.initial <:+ older) (hbase : older.lookup? base.id = some base)
    (hdeclared : ∀ i ∈ base.id :: (interfaces ++ properties), i.index < older.length)
    (h : World.generate e base.id interfaces properties parent d w₁ = (.ok proxy, w₃)) :
    ∃ proxy' w', World.generate e base.id interfaces properties parent d w₂ = (.ok proxy', w') := by
  obtain ⟨hid, hasked⟩ := List.forall_mem_cons.1 hdeclared
  obtain ⟨-, hproperties⟩ := List.forall_mem_append.1 hasked
  obtain ⟨new, hnew⟩ := holder
  obtain ⟨new', hnew'⟩ := holder'
  rw [← hnew] at hnumbered
  rw [← hnew'] at hnumbered'
  have hbase₁ : w₁.types.lookup? base.id = some base := by rw [← hnew, hnumbered.lookup?_append hid, hbase]
  have hbase₂ : w₂.types.lookup? base.id = some base := by rw [← hnew', hnumbered'.lookup?_append hid, hbase]
  obtain ⟨_, pairs, b, t, -, hbuilt, -, -⟩ := layers_of_generate hbase₁ h
  rw [← hnew] at hbuilt
  have hpairs : w₂.types.harvestProperties properties = .ok pairs := by
    rw [← hnew', hnumbered'.harvestProperties_append hproperties, ← hnumbered.harvestProperties_append hproperties]
    exact hbuilt.paired
  have hbridge := hbuilt.exists_bridgeDef_of_older hnumbered hnumbered' hstart hbase hdeclared
  rw [hnew'] at hbridge
  have hproxy (b' : HostType) (hb' : e.BuiltBridge w₂.types base properties pairs b') := by
    rw [← hnew'] at hb'
    exact hbuilt.exists_proxyDef_of_older hnumbered hnumbered' hstart hbase hdeclared hb'
  rw [hnew'] at hproxy
  obtain ⟨w', hgenerate⟩ := exists_generate_of_defs parent ⟨0⟩ hbase₂ hpairs hbridge hproxy
    (hset.dispatcherOf?_eq_none (Nat.le_succ _))
  exact ⟨_, exists_generate_of_dispatcher hgenerate d⟩

end World

end Interpose
