import Interpose.Proofs.Bodies
import Interpose.Proofs.Tables

/-!
# When layers can be defined

Every body of a layer is accepted, whatever the signature of its operation, unless it has too many parameters,
and no two methods of a layer have one slot unless an operation is named as accessors are. So both layers are
defined if the base can be extended, what is asked for as interfaces are interfaces, and the properties can be
paired.
-/

namespace Interpose

/-! ## Checks -/

namespace ClassDef

variable {types : TypeTable} {d : ClassDef} {t : HostType}

theorem superclassFlaw?_eq_none_iff : superclassFlaw? t = none ↔
    t.isInterface = false ∧ t.isFinal = false ∧ t.modifiers.isPublic = true := by
  rw [superclassFlaw?]
  cases t.isInterface <;> cases t.isFinal <;> cases t.modifiers.isPublic <;> simp

/-- The code of a definition is that of its constructors and that of its methods. -/
theorem forall_mem_codes {P : Code → Prop} :
    (∀ c ∈ d.codes, P c) ↔ (∀ c ∈ d.ctors, P c.code) ∧ ∀ m ∈ d.methods, P m.code := by
  rw [codes, List.forall_mem_append, List.forall_mem_map, List.forall_mem_map]

/-- Methods of different slots are no duplicates. -/
theorem duplicate?_eq_none {methods : List MethodDef} {seen : List Slot}
    (hnodup : (methods.map (·.slot)).Nodup) (hseen : ∀ m ∈ methods, m.slot ∉ seen) :
    duplicate? methods seen = none := by
  induction methods generalizing seen with
  | nil => rfl
  | cons m methods ih =>
      obtain ⟨hm, hrest⟩ := List.forall_mem_cons.1 hseen
      obtain ⟨hnew, hnodup⟩ := List.nodup_cons.1 hnodup
      rw [duplicate?, if_neg (by rwa [List.contains_iff_mem])]
      refine ih hnodup fun n hn hmem => ?_
      rcases List.mem_cons.1 hmem with heq | hmem
      · exact hnew (List.mem_map.2 ⟨n, hn, heq⟩)
      · exact hrest n hn hmem

/-- A definition passes its checks exactly if its superclass can be extended, its interfaces are interfaces
and no two of its methods have one slot. -/
theorem validate_eq_ok_iff : d.validate types = .ok () ↔
    (∀ t, types.lookup? d.superclass = some t → superclassFlaw? t = none) ∧
    (∀ i ∈ d.interfaces, ∀ t, types.lookup? i = some t → t.isInterface = true) ∧
    (d.methods.map (·.slot)).Nodup := by
  have hflaw : (types.lookup? d.superclass).bind superclassFlaw? = none ↔
      ∀ t, types.lookup? d.superclass = some t → superclassFlaw? t = none := by
    rw [Option.bind_eq_none_iff]
  have hclass : (d.interfaces.filterMap types.lookup?).find? (!·.isInterface) = none ↔
      ∀ i ∈ d.interfaces, ∀ t, types.lookup? i = some t → t.isInterface = true := by
    simp only [List.find?_eq_none, List.mem_filterMap, Bool.not_eq_true', Bool.not_eq_false]
    exact ⟨fun h i hi t ht => h t ⟨i, hi, ht⟩, fun h t ⟨i, hi, ht⟩ => h i hi t ht⟩
  rw [← hflaw, ← hclass]
  constructor
  · intro h
    refine ⟨?_, ?_, nodup_of_validate h⟩
    all_goals
      rw [validate] at h
      split at h
      · cases h
      split at h
      · cases h
      assumption
  · rintro ⟨hflaw, hclass, hnodup⟩
    rw [validate, hflaw, hclass, duplicate?_eq_none hnodup fun _ _ => List.not_mem_nil]

end ClassDef

/-- The root class can be extended, and its constructor takes nothing. -/
theorem TypeTable.Numbered.lookup?_root {types : TypeTable} (h : types.Numbered) (hstart : initial <:+ types) :
    ∃ r, types.lookup? .root = some r ∧ ClassDef.superclassFlaw? r = none ∧
      ∀ c ∈ r.constructors, c.params = [] := by
  obtain ⟨new, rfl⟩ := hstart
  have hlookup : lookup? (new ++ initial) .root = lookup? initial .root :=
    h.lookup?_append (by decide)
  refine ⟨_, hlookup.trans rfl, rfl, fun c hc => ?_⟩
  rw [List.mem_singleton.1 hc]

/-! ## Slots of accessors -/

/-- The slot of the accessor of an operation of a slot. -/
def Slot.accessor (s : Slot) : Slot := ⟨Naming.accessor s.name s.returns, s.returns, s.params⟩

/-- Operations of different slots have accessors of different slots. -/
theorem Slot.accessor_inj {s s' : Slot} (h : s.accessor = s'.accessor) : s = s' := by
  obtain ⟨hname, hreturns, hparams⟩ := Slot.mk.inj h
  rw [hreturns, Naming.accessor, Naming.accessor, String.append_left_inj, String.append_left_inj,
    String.append_right_inj] at hname
  cases s
  cases s'
  simp only at hname hreturns hparams
  rw [hname, hreturns, hparams]

/-- The name of an accessor starts with the mark of accessors. -/
theorem Slot.prefix_accessor (s : Slot) : Naming.accessorMark.toList <+: s.accessor.name.toList := by
  rw [accessor, Naming.accessor, String.toList_append, String.toList_append, String.toList_append,
    List.append_assoc, List.append_assoc]
  exact List.prefix_append _ _

/-- Operations whose names have no dollar and whose accessors are named alike are named alike. -/
theorem Naming.eq_of_accessor {name name' : String} {returns returns' : ValueType}
    (h : accessor name returns = accessor name' returns') (hname : '$' ∉ name.toList) (hname' : '$' ∉ name'.toList) :
    name = name' := by
  -- the name is what stands before the first dollar after the mark
  have htake (l rest : List Char) (hl : '$' ∉ l) : (l ++ '$' :: rest).takeWhile (· != '$') = l := by
    have hall : ∀ c ∈ l, (c != '$') = true := fun c hc => bne_iff_ne.2 (ne_of_mem_of_not_mem hc hl)
    rw [List.takeWhile_append_of_pos hall]
    simp
  have hlists := congrArg String.toList h
  simp only [accessor, String.toList_append, List.append_assoc, List.append_cancel_left_eq] at hlists
  have hbefore := congrArg (List.takeWhile (· != '$')) hlists
  rw [String.ext_iff]
  exact (htake _ _ hname).symm.trans (hbefore.trans (htake _ _ hname'))

/-- No accessor has the slot of another one, or of an operation that is not named as accessors are. -/
theorem nodup_accessors {slots : List Slot} (h : slots.Nodup)
    (hnames : ∀ s ∈ slots, ¬Naming.accessorMark.toList <+: s.name.toList) :
    (slots.flatMap fun s => [s, s.accessor]).Nodup := by
  have hne {s s' : Slot} (hs : s ∈ slots) : s ≠ s'.accessor :=
    fun heq => hnames s hs (heq ▸ s'.prefix_accessor)
  rw [List.nodup_flatMap]
  refine ⟨fun s hs => ?_, h.imp_of_mem fun {s s'} hs hs' hdiff a ha ha' => ?_⟩
  · rw [List.nodup_cons, List.mem_singleton]
    exact ⟨hne hs, List.nodup_singleton _⟩
  simp only [List.mem_cons, List.not_mem_nil, or_false] at ha ha'
  rcases ha with rfl | rfl <;> rcases ha' with ha' | ha'
  · exact hdiff ha'
  · exact hne hs ha'
  · exact hne hs' ha'.symm
  · exact hdiff (Slot.accessor_inj ha')

/-! ## Definitions of layers -/

namespace Layer

variable {types : TypeTable} {base bridge t : HostType} {abstracts ops : List Method}
  {pairs : List PropertyPair} {properties requested : List TypeId} {owner : String} {d : ClassDef}

/-- The constructors of a type can always be forwarded. -/
theorem exists_forwardingCtors (owner : String) (t : HostType) :
    ∃ ctors, forwardingCtors owner t = .ok ctors :=
  exists_mapM fun c _ => (exists_forwardingCtor owner c).imp fun _ h => h.1

/-- Constructors that are forwarded take what those of the superclass take, and their code is accepted unless
they take too much. -/
theorem ctors_of_forwardingCtors {ctors : List CtorDef} (h : forwardingCtors owner t = .ok ctors)
    {d : CtorDef} (hd : d ∈ ctors) : ∃ c ∈ t.constructors, d.params = c.params ∧
      (c.params.length + 1 < 0x10000 → d.code.Leads 0 0 d.code.instrs.size) := by
  obtain ⟨c, hc, hforwarded⟩ := exists_of_forall₂ (forall₂_of_mapM h) hd
  obtain ⟨d', hd', hparams, hleads⟩ := exists_forwardingCtor owner c
  obtain rfl := Except.ok.inj (hforwarded.symm.trans hd')
  exact ⟨c, (List.mem_filter.1 hc).1, hparams, hleads⟩

/-- The accessors of properties are accepted. -/
theorem exists_propertyMethods (owner : String) (pairs : List PropertyPair) :
    ∃ defs, propertyMethods owner pairs = .ok defs ∧
      ∀ m ∈ defs, m.code.Leads 0 0 m.code.instrs.size := by
  induction pairs with
  | nil => exact ⟨[], rfl, nofun⟩
  | cons p pairs ih =>
      obtain ⟨getter, hgetter, hgetterLeads⟩ := exists_propertyGetter owner p
      obtain ⟨setter, hsetter, hsetterLeads⟩ := exists_propertySetter owner p
      obtain ⟨rest, hrest, hleads⟩ := ih
      refine ⟨getter :: setter :: rest, ?_, ?_⟩
      · exact bind_eq_ok.2 ⟨_, hgetter, bind_eq_ok.2 ⟨_, hsetter, bind_eq_ok.2 ⟨_, hrest, rfl⟩⟩⟩
      · exact List.forall_mem_cons.2 ⟨hgetterLeads, List.forall_mem_cons.2 ⟨hsetterLeads, hleads⟩⟩

/-- A bridge can always be defined, and its methods are accepted. -/
theorem exists_bridgeDef (types : TypeTable) (base : HostType) (abstracts : List Method)
    (pairs : List PropertyPair) (properties : List TypeId) :
    ∃ d, bridgeDef types base abstracts pairs properties = .ok d ∧
      ∀ m ∈ d.methods, m.code.Leads 0 0 m.code.instrs.size := by
  obtain ⟨accessors, haccessors, hleads⟩ := exists_propertyMethods (Naming.layer base.name .bridge) pairs
  obtain ⟨stubs, hstubs⟩ := exists_mapM (l := abstracts.filter fun op => !isClaimed pairs op) fun op _ =>
    (exists_stub (Naming.layer base.name .bridge) op).imp fun _ h => h.1
  obtain ⟨ctors, hctors⟩ : ∃ ctors,
      ctorsOver types (Naming.layer base.name .bridge) (bridgeSuperclass base) = .ok ctors := by
    rw [ctorsOver]
    split
    · exact exists_forwardingCtors _ _
    · exact ⟨[], rfl⟩
  refine ⟨_, bridgeDef_eq_ok_iff.2 ⟨accessors, stubs, ctors, haccessors, hstubs, hctors, rfl⟩, fun m hm => ?_⟩
  rcases List.mem_append.1 hm with hm | hm
  · exact hleads m hm
  · obtain ⟨op, -, hstub⟩ := exists_of_forall₂ (forall₂_of_mapM hstubs) hm
    obtain ⟨m', hm', hleads⟩ := exists_stub (Naming.layer base.name .bridge) op
    obtain rfl := Except.ok.inj (hstub.symm.trans hm')
    exact hleads

theorem slots_of_stubs {defs : List MethodDef} (h : List.Forall₂ (fun op m => stub owner op = .ok m) ops defs) :
    defs.map (·.slot) = ops.map (·.slot) := by
  induction h with
  | nil => rfl
  | cons hstub _ ih => rw [List.map_cons, List.map_cons, ih, (stub_eq_ok hstub).1]

/-- No two methods of a bridge have one slot, since accessors of properties replace stubs. -/
theorem nodup_bridgeDef {methods : List Method} (h : bridgeDef types base abstracts pairs properties = .ok d)
    (hpairs : Property.Pairs methods pairs) (hsorted : Gathering.Sorted abstracts) :
    (d.methods.map (·.slot)).Nodup := by
  obtain ⟨accessors, stubs, ctors, haccessors, hstubs, -, rfl⟩ := bridgeDef_eq_ok_iff.1 h
  rw [List.map_append, slots_of_propertyMethods haccessors, slots_of_stubs (forall₂_of_mapM hstubs)]
  refine List.nodup_append'.2 ⟨hpairs.nodup_slots, ?_, fun s hs hs' => ?_⟩
  · exact (Gathering.Sorted.nodup_slots hsorted).sublist (List.filter_sublist.map _)
  · obtain ⟨op, hop, rfl⟩ := List.mem_map.1 hs'
    rw [← isClaimed_iff] at hs
    rw [List.mem_filter, hs] at hop
    cases hop.2

theorem thunkConstants_le {s : Slot} (h : s.params.length < 65000) :
    thunkConstants s ≤ CodeBuilder.maxConstants := by
  rw [thunkConstants, CodeBuilder.maxConstants]
  split <;> omega

/-- The methods of a proxy can be defined if its dispatching bodies have not too many constants, and they are
accepted. -/
theorem exists_proxyMethods (types : TypeTable) (owner : String) (bridge : TypeId) (k : Nat)
    (hops : ∀ op ∈ ops, thunkConstants op.slot ≤ CodeBuilder.maxConstants) :
    ∃ defs, proxyMethods types owner bridge k ops = .ok defs ∧
      ∀ m ∈ defs, m.code.Leads 0 0 m.code.instrs.size := by
  induction ops generalizing k with
  | nil => exact ⟨[], rfl, nofun⟩
  | cons op ops ih =>
      obtain ⟨hop, hops⟩ := List.forall_mem_cons.1 hops
      have hslot : ∀ m ∈ superTarget? types bridge op, m.slot = op.slot := fun m => slot_of_superTarget?
      obtain ⟨code, hcode⟩ : ∃ code, thunkCode owner k op (superTarget? types bridge op) = .ok code :=
        exists_thunkCode_iff.2 hop
      obtain ⟨upward, hupward, hupwardLeads⟩ := exists_accessor owner op hslot
      obtain ⟨rest, hrest, hleads⟩ := ih (k + 1) hops
      have hsmall : op.params.length + 1 < 0x10000 := by
        have hlength : op.params.length + 3 ≤ thunkConstants op.slot := Nat.le_add_right _ _
        rw [CodeBuilder.maxConstants] at hop
        omega
      obtain ⟨dispatching, hdispatching, hdispatchingLeads⟩ :
          ∃ d, thunk owner k op (superTarget? types bridge op) = .ok d ∧
            d.code.Leads 0 0 d.code.instrs.size :=
        ⟨_, thunk_eq_ok.2 ⟨code, hcode, rfl⟩, leads_thunk hcode hslot⟩
      refine ⟨dispatching :: upward :: rest, ?_, ?_⟩
      · exact bind_eq_ok.2 ⟨_, hdispatching, bind_eq_ok.2 ⟨_, hupward, bind_eq_ok.2 ⟨_, hrest, rfl⟩⟩⟩
      · exact List.forall_mem_cons.2 ⟨hdispatchingLeads,
          List.forall_mem_cons.2 ⟨hupwardLeads hsmall, hleads⟩⟩

/-- Each operation of a proxy has its slot and that of its accessor. -/
theorem slots_of_proxyMethods {bridge : TypeId} {k : Nat} {defs : List MethodDef}
    (h : proxyMethods types owner bridge k ops = .ok defs) :
    defs.map (·.slot) = (ops.map (·.slot)).flatMap fun s => [s, s.accessor] := by
  induction ops generalizing k defs with
  | nil =>
      cases h
      rfl
  | cons op ops ih =>
      obtain ⟨dispatching, hdispatching, h⟩ := bind_eq_ok.1 h
      obtain ⟨upward, hupward, h⟩ := bind_eq_ok.1 h
      obtain ⟨rest, hrest, h⟩ := bind_eq_ok.1 h
      rw [pure_eq_ok] at h
      subst h
      obtain ⟨_, -, rfl⟩ := thunk_eq_ok.1 hdispatching
      obtain ⟨_, -, rfl⟩ := accessor_eq_ok.1 hupward
      rw [List.map_cons, List.map_cons, ih hrest]
      rfl

/-- A proxy can be defined if its dispatching bodies have not too many constants, and its methods are
accepted. -/
theorem exists_proxyDef (types : TypeTable) (bridge base : HostType) (requested : List TypeId)
    (hops : ∀ op ∈ ops, thunkConstants op.slot ≤ CodeBuilder.maxConstants) :
    ∃ d, proxyDef types bridge base ops requested = .ok d ∧
      ∀ m ∈ d.methods, m.code.Leads 0 0 m.code.instrs.size := by
  obtain ⟨methods, hmethods, hleads⟩ :=
    exists_proxyMethods types (Naming.layer base.name .proxy) bridge.id 0 hops
  obtain ⟨ctors, hctors⟩ := exists_forwardingCtors (Naming.layer base.name .proxy) bridge
  exact ⟨_, proxyDef_eq_ok_iff.2 ⟨methods, ctors, hmethods, hctors, rfl⟩, hleads⟩

/-- The constructors of a layer take what those of its superclass take, and their code is accepted unless they
take too much. -/
theorem ctors_of_ctorsOver {superclass : TypeId} {ctors : List CtorDef}
    (h : ctorsOver types owner superclass = .ok ctors) {d : CtorDef} (hd : d ∈ ctors) :
    ∃ t c, types.lookup? superclass = some t ∧ c ∈ t.constructors ∧ d.params = c.params ∧
      (c.params.length + 1 < 0x10000 → d.code.Leads 0 0 d.code.instrs.size) := by
  rw [ctorsOver] at h
  split at h
  · rename_i t ht
    obtain ⟨c, hc, hrest⟩ := ctors_of_forwardingCtors h hd
    exact ⟨t, c, ht, hc, hrest⟩
  · cases h
    cases hd

/-- The constructors of a bridge take no more than those of its base, and their code is accepted. -/
theorem ctors_of_bridgeDef (h : bridgeDef types base abstracts pairs properties = .ok d)
    (hnumbered : types.Numbered) (hstart : TypeTable.initial <:+ types)
    (hbase : types.lookup? base.id = some base)
    (hsmall : ∀ c ∈ base.constructors, c.params.length < 65000) :
    ∀ c ∈ d.ctors, c.params.length < 65000 ∧ c.code.Leads 0 0 c.code.instrs.size := by
  obtain ⟨_, _, ctors, -, -, hctors, rfl⟩ := bridgeDef_eq_ok_iff.1 h
  intro d hd
  obtain ⟨t, c, ht, hc, hparams, hleads⟩ := ctors_of_ctorsOver hctors hd
  have hlength : c.params.length < 65000 := by
    rw [bridgeSuperclass] at ht
    split at ht
    · obtain ⟨r, hr, -, hnone⟩ := hnumbered.lookup?_root hstart
      rw [hr] at ht
      cases ht
      rw [hnone c hc]
      decide
    · rw [hbase] at ht
      cases ht
      exact hsmall c hc
  exact ⟨hparams ▸ hlength, hleads (by omega)⟩

/-- All code of a bridge is accepted. -/
theorem leads_bridgeDef (h : bridgeDef types base abstracts pairs properties = .ok d)
    (hnumbered : types.Numbered) (hstart : TypeTable.initial <:+ types)
    (hbase : types.lookup? base.id = some base)
    (hsmall : ∀ c ∈ base.constructors, c.params.length < 65000) :
    ∀ c ∈ d.codes, c.Leads 0 0 c.instrs.size := by
  obtain ⟨d', hd', hmethods⟩ := exists_bridgeDef types base abstracts pairs properties
  obtain rfl := Except.ok.inj (h.symm.trans hd')
  exact ClassDef.forall_mem_codes.2
    ⟨fun c hc => (ctors_of_bridgeDef h hnumbered hstart hbase hsmall c hc).2, hmethods⟩

/-- The definition of a bridge passes its checks exactly if its base is an interface or a class that can be
extended, and its properties are declared by interfaces. -/
theorem validate_bridgeDef_iff {methods : List Method}
    (h : bridgeDef types base abstracts pairs properties = .ok d) (hpairs : Property.Pairs methods pairs)
    (hsorted : Gathering.Sorted abstracts) (hnumbered : types.Numbered)
    (hstart : TypeTable.initial <:+ types) (hbase : types.lookup? base.id = some base) :
    d.validate types = .ok () ↔
      (base.isInterface = true ∨ base.modifiers.isPublic = true ∧ base.isFinal = false) ∧
      ∀ i ∈ properties, ∀ t, types.lookup? i = some t → t.isInterface = true := by
  obtain ⟨hsuperclass, hinterfaces, -⟩ := bridgeDef_eq_ok h
  rw [ClassDef.validate_eq_ok_iff, and_iff_left (nodup_bridgeDef h hpairs hsorted), hsuperclass, hinterfaces]
  cases hclass : base.isInterface with
  | true =>
      obtain ⟨r, hr, hopen, -⟩ := hnumbered.lookup?_root hstart
      simp only [if_true, hr, Option.some.injEq, forall_eq', hopen, List.forall_mem_cons, hbase, hclass,
        true_and, true_or]
  | false =>
      simp only [Bool.false_eq_true, if_false, hbase, Option.some.injEq, forall_eq',
        ClassDef.superclassFlaw?_eq_none_iff, hclass, true_and, false_or]
      rw [and_comm (a := base.isFinal = false)]

/-- The definition of a proxy on a bridge passes its checks exactly if the types that are asked for are
interfaces, and no two of its methods have one slot. -/
theorem validate_proxyDef_iff (h : proxyDef types bridge base ops requested = .ok d)
    (hbridge : types.lookup? bridge.id = some bridge) (hopen : ClassDef.superclassFlaw? bridge = none)
    (hnumbered : types.Numbered) (hstart : TypeTable.initial <:+ types) :
    d.validate types = .ok () ↔
      (∀ i ∈ requested, ∀ t, types.lookup? i = some t → t.isInterface = true) ∧
      ((ops.map (·.slot)).flatMap fun s => [s, s.accessor]).Nodup := by
  obtain ⟨methods, ctors, hmethods, -, rfl⟩ := proxyDef_eq_ok_iff.1 h
  have hcapability : ∀ t, types.lookup? .capability = some t → t.isInterface = true := by
    obtain ⟨new, rfl⟩ := hstart
    intro t ht
    rw [hnumbered.lookup?_append (by decide)] at ht
    cases ht
    rfl
  rw [ClassDef.validate_eq_ok_iff, slots_of_proxyMethods hmethods, hbridge]
  simp only [Option.some.injEq, forall_eq', hopen, true_and, List.mem_append, List.mem_singleton, or_imp,
    forall_and, forall_eq, and_iff_left hcapability]

end Layer

/-! ## Generating -/

variable {e : Emitter} {w w' : World} {base b t : HostType} {interfaces properties : List TypeId}
  {pairs : List PropertyPair}

/-- Whether nothing that a layer on a base may take over has too many parameters or is named as accessors are,
nor any constructor of the base too many parameters. -/
structure TypeTable.Modest (types : TypeTable) (base : HostType) (extra : List TypeId) : Prop where
  params : ∀ m, types.Declares base.id extra m → m.params.length < 65000
  names : ∀ m, types.Declares base.id extra m → ¬Naming.accessorMark.toList <+: m.name.toList
  ctors : ∀ c ∈ base.constructors, c.params.length < 65000

/-- Whether that is so of what may be taken over, whatever else is declared. -/
structure TypeTable.Fits (types : TypeTable) (base : HostType) (extra : List TypeId) : Prop where
  offered : ∀ m, types.Declares base.id extra m → m.isOffered = true →
    m.params.length < 65000 ∧ ¬Naming.accessorMark.toList <+: m.name.toList
  ctors : ∀ c ∈ base.constructors, c.params.length < 65000

theorem TypeTable.Modest.fits {types : TypeTable} {extra : List TypeId} (h : types.Modest base extra) :
    types.Fits base extra :=
  ⟨fun m hm _ => ⟨h.params m hm, h.names m hm⟩, h.ctors⟩

theorem TypeTable.Modest.of_declares {types types' : TypeTable} {extra extra' : List TypeId}
    (h : types.Modest base extra)
    (hdeclares : ∀ m, types'.Declares base.id extra' m → types.Declares base.id extra m) :
    types'.Modest base extra' :=
  ⟨fun m hm => h.params m (hdeclares m hm), fun m hm => h.names m (hdeclares m hm), h.ctors⟩

/-- The operation of the capability has no parameters and is not named as accessors are. -/
theorem TypeTable.Modest.capability {types : TypeTable} {extra : List TypeId} (h : types.Modest base extra)
    (hnumbered : types.Numbered) (hstart : initial <:+ types) :
    types.Modest base (extra ++ [.capability]) := by
  obtain ⟨c, hc, -, hinterfaces, hmethods⟩ := hnumbered.lookup?_capability hstart
  have hcases (m : Method) (hm : types.Declares base.id (extra ++ [.capability]) m) :
      types.Declares base.id extra m ∨ m.slot = capabilitySlot := by
    obtain ⟨t, ht, hm⟩ := hm
    rw [InScope, ← List.append_assoc, reaches_append, ← or_assoc, reaches_singleton hc, hinterfaces] at ht
    rcases ht with ht | rfl | ht
    · exact .inl ⟨t, ht, hm⟩
    · exact .inr (hmethods m hm).1
    · exact absurd ht not_reaches_nil
  refine ⟨fun m hm => ?_, fun m hm => ?_, h.ctors⟩
  all_goals
    rcases hcases m hm with hm | hslot
    · first | exact h.params m hm | exact h.names m hm
    obtain ⟨hname, -, hparams⟩ := Slot.mk.inj hslot
  · rw [hparams]
    decide
  · rw [hname]
    decide

namespace Emitter

variable {types : TypeTable} {d : ClassDef} {extra : List TypeId}

/-- The constructors of a type take what those of its definition take. -/
theorem Defines.params_of_ctor (h : e.Defines types d t) {c : Constructor} (hc : c ∈ t.constructors) :
    ∃ c' ∈ d.ctors, c.params = c'.params := by
  obtain ⟨c', hc', hmade⟩ := exists_of_forall₂ (forall₂_of_mapM h.constructors) hc
  obtain ⟨_, -, rfl⟩ := map_eq_ok.1 hmade
  exact ⟨c', hc', rfl⟩

/-- A type that is defined as a public class can be extended. -/
theorem Defines.superclassFlaw?_eq_none (h : e.Defines types d t) (hpublic : d.modifiers = .public) :
    ClassDef.superclassFlaw? t = none := by
  rw [ClassDef.superclassFlaw?_eq_none_iff, HostType.isInterface, HostType.isFinal, h.kind, h.modifiers,
    hpublic]
  decide

/-- A bridge can be extended. -/
theorem BuiltBridge.superclassFlaw?_eq_none (h : e.BuiltBridge types base properties pairs b) :
    ClassDef.superclassFlaw? b = none := by
  obtain ⟨d, hd, hb⟩ := h.bridge
  obtain ⟨_, _, _, -, -, -, rfl⟩ := Layer.bridgeDef_eq_ok_iff.1 hd
  exact hb.superclassFlaw?_eq_none rfl

section

variable (h : e.BuiltBridge types base properties pairs b) (hnumbered : types.Numbered)
  (hstart : TypeTable.initial <:+ types) (hbase : types.lookup? base.id = some base)
  (hdeclared : ∀ i ∈ properties ++ extra, i.index < types.length)
  (hfits : types.Fits base (properties ++ extra))

include h hnumbered hstart hbase hdeclared hfits

/-- Whatever is taken over above a bridge has not too many parameters and is not named as accessors are. -/
theorem BuiltBridge.fits_of_mem_slots {s : Slot}
    (hs : s ∈ (TypeTable.harvest (b :: types) b.id extra).map (·.slot)) :
    s.params.length < 65000 ∧ ¬Naming.accessorMark.toList <+: s.name.toList := by
  obtain ⟨hproperties, hextra⟩ := List.forall_mem_append.1 hdeclared
  have hnumbered' := h.isBridge.numbered hnumbered hstart hbase hproperties
  obtain ⟨m, hm, rfl, hoffered⟩ := h.declares_of_mem_slots hnumbered' hstart hbase hextra hs
  exact hfits.offered m hm hoffered

/-- A proxy can be defined on a bridge of a base that fits, no two of its methods have one slot, and all its code
is accepted. -/
theorem BuiltBridge.exists_proxyDef (requested : List TypeId) :
    ∃ d, Layer.proxyDef (b :: types) b base (TypeTable.harvest (b :: types) b.id extra) requested = .ok d ∧
      (((TypeTable.harvest (b :: types) b.id extra).map (·.slot)).flatMap fun s => [s, s.accessor]).Nodup ∧
      ∀ c ∈ d.codes, c.Leads 0 0 c.instrs.size := by
  have hslots {s : Slot} := h.fits_of_mem_slots hnumbered hstart hbase hdeclared hfits (s := s)
  have hops : ∀ op ∈ TypeTable.harvest (b :: types) b.id extra,
      Layer.thunkConstants op.slot ≤ CodeBuilder.maxConstants :=
    fun op hop => Layer.thunkConstants_le (hslots (List.mem_map_of_mem hop)).1
  obtain ⟨d, hd, hmethods⟩ := Layer.exists_proxyDef (b :: types) b base requested hops
  refine ⟨d, hd, ?_, ClassDef.forall_mem_codes.2 ⟨fun c hc => ?_, hmethods⟩⟩
  · exact nodup_accessors (Gathering.Sorted.nodup_slots (sorted_intercept _)) fun s hs => (hslots hs).2
  · obtain ⟨bd, hbd, hb⟩ := h.bridge
    obtain ⟨_, ctors, -, hctors, rfl⟩ := Layer.proxyDef_eq_ok_iff.1 hd
    obtain ⟨c', hc', -, hleads⟩ := Layer.ctors_of_forwardingCtors hctors hc
    obtain ⟨c'', hc'', hparams⟩ := hb.params_of_ctor hc'
    have hlt := (Layer.ctors_of_bridgeDef hbd hnumbered hstart hbase hfits.ctors c'' hc'').1
    exact hleads (by rw [hparams]; omega)

end

end Emitter

/-- A subtype is generated if both of its layers have definitions that pass their checks. -/
theorem World.exists_generate_of_defs (parent : Loader) (k : DispatcherId)
    (hbase : w.types.lookup? base.id = some base)
    (hpairs : w.types.harvestProperties properties = .ok pairs)
    (hbridge : ∃ d, Layer.bridgeDef w.types base (w.types.harvestAbstract base.id properties) pairs
      properties = .ok d ∧ d.validate w.types = .ok () ∧ ∀ c ∈ d.codes, e.Takes c)
    (hproxy : ∀ b, e.BuiltBridge w.types base properties pairs b →
      ∃ d', Layer.proxyDef (b :: w.types) b base (TypeTable.harvest (b :: w.types) b.id
          (dedupIds interfaces ++ [.capability])) (dedupIds interfaces) = .ok d' ∧
        d'.validate (b :: w.types) = .ok () ∧ ∀ c ∈ d'.codes, e.Takes c)
    (hnone : w.dispatcherOf? ⟨w.types.length + 1⟩ = none) :
    ∃ w', World.generate e base.id interfaces properties parent (some k) w =
      (.ok ⟨w.types.length + 1⟩, w') := by
  obtain ⟨d, hd, hvalid, htakes⟩ := hbridge
  obtain ⟨⟨id, w₀⟩, hdefine⟩ := Emitter.exists_define (w := (w.addLoader (subtypeLoaderName base)
    (some parent)).2) hvalid htakes (w.addLoader (subtypeLoaderName base) (some parent)).1
  have hbridged : e.bridge (w.addLoader (subtypeLoaderName base) (some parent)).2 base
      (w.types.harvestAbstract base.id properties) pairs properties
      (w.addLoader (subtypeLoaderName base) (some parent)).1 = .ok (id, w₀) :=
    bind_eq_ok.2 ⟨d, hd, hdefine⟩
  obtain ⟨b, arrays, hb, rfl, hw₀⟩ := Emitter.defines_of_define hdefine
  have htypes : w₀.types = b :: w.types := by rw [hw₀]; rfl
  obtain ⟨d', hd', hvalid', htakes'⟩ := hproxy b ⟨hpairs, d, hd, hb⟩
  rw [← htypes] at hd' hvalid'
  obtain ⟨⟨id, w₁⟩, hdefine'⟩ := Emitter.exists_define hvalid' htakes'
    (w.addLoader (subtypeLoaderName base) (some parent)).1
  obtain ⟨t, arrays', ht, rfl, -⟩ := Emitter.defines_of_define hdefine'
  have hid : t.id = ⟨w.types.length + 1⟩ := by rw [ht.id, htypes]; rfl
  have hlookup : w₀.types.lookup? b.id = some b := by
    rw [htypes, TypeTable.lookup?, List.find?_cons, beq_self_eq_true]
  rw [hid] at hdefine'
  have hfree : w₀.dispatcherOf? ⟨w.types.length + 1⟩ = none := by rw [hw₀]; exact hnone
  obtain ⟨w', hgenerate, -⟩ := exists_generate (P := fun _ => True) hbase hpairs hbridged hlookup rfl
    ⟨w₁, bind_eq_ok.2 ⟨d', hd', hdefine'⟩, trivial⟩ hfree
  exact ⟨w', hgenerate⟩

/-- A subtype of a base that can be extended is generated if nothing that is offered there has too many parameters
or is named as accessors are. -/
theorem World.exists_generate_of_fits (e : Emitter) (parent : Loader) (k : DispatcherId)
    (hnumbered : w.types.Numbered) (hstart : TypeTable.initial <:+ w.types)
    (hbase : w.types.lookup? base.id = some base)
    (hdeclared : ∀ i ∈ interfaces ++ properties, i.index < w.types.length)
    (hfits : w.types.Fits base (properties ++ (dedupIds interfaces ++ [.capability])))
    (hinterfaces : ∀ i ∈ interfaces ++ properties, ∀ t, w.types.lookup? i = some t → t.isInterface = true)
    (hpairs : w.types.harvestProperties properties = .ok pairs)
    (hopen : base.isInterface = true ∨ base.modifiers.isPublic = true ∧ base.isFinal = false)
    (hnone : w.dispatcherOf? ⟨w.types.length + 1⟩ = none) :
    ∃ w', World.generate e base.id interfaces properties parent (some k) w =
      (.ok ⟨w.types.length + 1⟩, w') := by
  obtain ⟨hrequested, hproperties⟩ := List.forall_mem_append.1 hdeclared
  obtain ⟨hrequestedInterfaces, hpropertyInterfaces⟩ := List.forall_mem_append.1 hinterfaces
  have hextra := TypeTable.index_lt_of_asked hstart hdeclared
  refine exists_generate_of_defs parent k hbase hpairs ?_ (fun b hb => ?_) hnone
  · obtain ⟨d, hd, -⟩ := Layer.exists_bridgeDef w.types base
      (w.types.harvestAbstract base.id properties) pairs properties
    have hleads := Layer.leads_bridgeDef hd hnumbered hstart hbase hfits.ctors
    refine ⟨d, hd, ?_, fun c hc => Emitter.takes_of_leads (hleads c hc) e⟩
    exact (Layer.validate_bridgeDef_iff hd (TypeTable.pairs_of_harvestProperties hpairs)
      ((sorted_intercept _).sublist List.filter_sublist) hnumbered hstart hbase).2 ⟨hopen, hpropertyInterfaces⟩
  · obtain ⟨d, hd, hnodup, hleads⟩ := hb.exists_proxyDef hnumbered hstart hbase hextra hfits
      (dedupIds interfaces)
    have hnumbered' := hb.isBridge.numbered hnumbered hstart hbase hproperties
    have hgrown : TypeTable.Numbered ([b] ++ w.types) := hnumbered'
    have hlookup := hnumbered'.lookup?_of_mem List.mem_cons_self
    refine ⟨d, hd, (Layer.validate_proxyDef_iff hd hlookup hb.superclassFlaw?_eq_none hnumbered'
      (hstart.trans (List.suffix_cons b _))).2 ⟨fun i hi t ht => ?_, hnodup⟩,
      fun c hc => Emitter.takes_of_leads (hleads c hc) e⟩
    have hi := mem_dedupIds.1 hi
    rw [← List.singleton_append, hgrown.lookup?_append (hrequested i hi)] at ht
    exact hrequestedInterfaces i hi t ht

end Interpose
