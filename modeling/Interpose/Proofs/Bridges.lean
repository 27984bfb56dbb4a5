import Interpose.Platform.Subtype
import Interpose.Proofs.Definitions
import Interpose.Proofs.Hierarchies
import Interpose.Proofs.Interception
import Interpose.Proofs.Resolution
import Mathlib.Data.List.Nodup

/-!
# What bridges add

A bridge lies between a base and its proxy. It redefines the abstract operations of the base, and adds
accessors of properties, which are final. So the body that an operation of the base has above the proxy
is still its own, wherever the class chain of the base has one that subtypes see.
-/

namespace Interpose

namespace Layer

variable {owner : String}

/-- The accessors of properties are final. -/
theorem modifiers_of_propertyMethods {pairs : List PropertyPair} {defs : List MethodDef}
    (h : propertyMethods owner pairs = .ok defs) : ∀ m ∈ defs, m.modifiers = ownModifiers := by
  induction pairs generalizing defs with
  | nil =>
      cases h
      intro m hm
      cases hm
  | cons p pairs ih =>
      rw [propertyMethods, bind_eq_ok] at h
      obtain ⟨getter, hgetter, h⟩ := h
      rw [bind_eq_ok] at h
      obtain ⟨setter, hsetter, h⟩ := h
      rw [bind_eq_ok] at h
      obtain ⟨rest, hrest, h⟩ := h
      rw [pure_eq_ok] at h
      subst h
      rw [propertyGetter, bind_eq_ok] at hgetter
      obtain ⟨_, -, hgetter⟩ := hgetter
      rw [pure_eq_ok] at hgetter
      rw [propertySetter, bind_eq_ok] at hsetter
      obtain ⟨_, -, hsetter⟩ := hsetter
      rw [pure_eq_ok] at hsetter
      intro m hm
      rcases List.mem_cons.1 hm with rfl | hm
      · rw [← hgetter]
      rcases List.mem_cons.1 hm with rfl | hm
      · rw [← hsetter]
      · exact ih hrest m hm

/-- A stub redefines its operation. -/
theorem stub_eq_ok {op : Method} {m : MethodDef} (h : stub owner op = .ok m) :
    m.slot = op.slot ∧ m.modifiers = overrideModifiers op := by
  rw [stub, bind_eq_ok] at h
  obtain ⟨_, -, h⟩ := h
  rw [pure_eq_ok] at h
  subst h
  exact ⟨rfl, rfl⟩

/-- Redefining an operation does not change whether it is offered. -/
theorem isOffered_of_stub {op m : Method} (hslot : m.slot = op.slot)
    (hmodifiers : m.modifiers = overrideModifiers op) : m.isOffered = op.isOffered := by
  obtain ⟨hname, -, hparams⟩ := Slot.mk.inj hslot
  rw [Method.isOffered, Method.isOffered, Method.isInterceptable, Method.isInterceptable, hname, hparams,
    hmodifiers, overrideModifiers, Modifiers.isFinal, Modifiers.isStatic, Modifiers.isPublic,
    Modifiers.isProtected, Modifiers.contains_without (by decide), Modifiers.contains_without (by decide),
    Modifiers.contains_without (by decide), Modifiers.contains_without (by decide)]
  rfl

/-- The definition of a bridge lists the accessors of its properties and then its stubs. -/
theorem bridgeDef_eq_ok {types : TypeTable} {base : HostType} {abstracts : List Method}
    {pairs : List PropertyPair} {properties : List TypeId} {d : ClassDef}
    (h : bridgeDef types base abstracts pairs properties = .ok d) :
    d.superclass = (if base.isInterface then .root else base.id) ∧
      d.interfaces = (if base.isInterface then base.id :: properties else properties) ∧
      d.generated = some ⟨.bridge, base.id, [], []⟩ ∧
      ∃ accessors stubs, propertyMethods (Naming.layer base.name .bridge) pairs = .ok accessors ∧
        (abstracts.filter fun op => !isClaimed pairs op).mapM (stub (Naming.layer base.name .bridge)) =
          .ok stubs ∧
        d.methods = accessors ++ stubs := by
  rw [bridgeDef, bind_eq_ok] at h
  obtain ⟨accessors, haccessors, h⟩ := h
  rw [bind_eq_ok] at h
  obtain ⟨stubs, hstubs, h⟩ := h
  dsimp only at h
  split at h
  all_goals
    rw [bind_eq_ok] at h
    obtain ⟨ctors, -, h⟩ := h
    rw [pure_eq_ok] at h
    subst h
    exact ⟨rfl, rfl, rfl, accessors, stubs, haccessors, hstubs, rfl⟩

end Layer

/-- What the bridge of a base is: a type below the base whose methods, each under a slot of its own, are
final or redefine abstract operations. Without properties it has one for each abstract operation. -/
structure Emitter.Bridge (types : TypeTable) (base : HostType) (abstracts : List Method)
    (properties : List TypeId) (b : HostType) : Prop where
  id : b.id = types.fresh
  superclass : b.superclass = some (if base.isInterface then .root else base.id)
  interfaces : b.interfaces = if base.isInterface then base.id :: properties else properties
  slots : (b.methods.map (·.slot)).Nodup
  methods : ∀ m ∈ b.methods, m.modifiers.isFinal = true ∨
    ∃ op ∈ abstracts, m.slot = op.slot ∧ m.modifiers = Layer.overrideModifiers op
  stubs : properties = [] → List.Forall₂ (fun op m => m.slot = op.slot ∧
    m.modifiers = Layer.overrideModifiers op) abstracts b.methods

/-- Defining methods that are stubs makes methods that redefine their operations. -/
theorem Emitter.stubs_of_forall₂ {e : Emitter} {owner : TypeId} {name label : String}
    {ops : List Method} {defs : List MethodDef} {methods : List Method}
    (hstubs : List.Forall₂ (fun op m => Layer.stub label op = .ok m) ops defs)
    (hmethods : List.Forall₂ (fun m m' => e.method owner name m = .ok m') defs methods) :
    List.Forall₂ (fun op m => m.slot = op.slot ∧ m.modifiers = Layer.overrideModifiers op) ops
      methods := by
  induction hstubs generalizing methods with
  | nil =>
      cases hmethods
      exact .nil
  | cons hstub _ ih =>
      cases hmethods with
      | cons hmethod hrest =>
          obtain ⟨_, -, rfl⟩ := method_eq_ok.1 hmethod
          exact .cons (Layer.stub_eq_ok hstub) (ih hrest)

/-- Defining a bridge adds it, and an array. -/
theorem Emitter.bridge_eq_ok {e : Emitter} {w w' : World} {base : HostType} {abstracts : List Method}
    {pairs : List PropertyPair} {properties : List TypeId} {loader : Loader} {id : TypeId}
    (hpairs : properties = [] → pairs = [])
    (h : e.bridge w base abstracts pairs properties loader = .ok (id, w')) :
    ∃ b arrays, Bridge w.types base abstracts properties b ∧ id = b.id ∧
      w' = { w with types := b :: w.types, arrays := arrays } := by
  rw [Emitter.bridge, bind_eq_ok] at h
  obtain ⟨d, hd, h⟩ := h
  obtain ⟨hsuperclass, hinterfaces, hgenerated, accessors, stubs, haccessors, hstubs, hdefs⟩ :=
    Layer.bridgeDef_eq_ok hd
  obtain ⟨hvalid, -, hid, ctors, methods, -, hmethods, hw⟩ := define_eq_ok h
  rw [hgenerated] at hw
  refine ⟨_, _, ⟨hid, congrArg some hsuperclass, hinterfaces, ?_, fun m hm => ?_, fun hnone => ?_⟩, rfl,
    hw⟩
  · exact slots_of_forall₂ hmethods ▸ ClassDef.nodup_of_validate hvalid
  · obtain ⟨k, hk⟩ := List.getElem?_of_mem hm
    obtain ⟨def_, hdef, hmade⟩ := getElem?_of_forall₂ hmethods.flip hk
    obtain ⟨_, -, rfl⟩ := method_eq_ok.1 hmade
    rw [hdefs] at hdef
    rcases List.mem_append.1 (List.mem_of_getElem? hdef) with hdef | hdef
    · refine .inl ?_
      change def_.modifiers.isFinal = true
      rw [Layer.modifiers_of_propertyMethods haccessors def_ hdef]
      rfl
    · obtain ⟨j, hj⟩ := List.getElem?_of_mem hdef
      obtain ⟨op, hop, hstub⟩ := getElem?_of_forall₂ (forall₂_of_mapM hstubs).flip hj
      exact .inr ⟨op, (List.mem_filter.1 (List.mem_of_getElem? hop)).1, Layer.stub_eq_ok hstub⟩
  · obtain rfl := hpairs hnone
    cases haccessors
    have hall : (abstracts.filter fun op => !Layer.isClaimed [] op) = abstracts :=
      List.filter_eq_self.2 fun _ _ => rfl
    rw [hdefs, List.nil_append] at hmethods
    rw [hall] at hstubs
    exact stubs_of_forall₂ (forall₂_of_mapM hstubs) hmethods

/-- Emitting the layers of a subtype ends before there is a bridge, or with a bridge only, or with a proxy
of what is harvested from the bridge. -/
theorem World.emitLayers_cases (e : Emitter) (label : String) (base : HostType)
    (interfaces properties : List TypeId) (parent : Loader) (w : World) :
    (∃ cause issued, w.emitLayers e label base interfaces properties parent =
      (.error cause, { w with issued := issued })) ∨
    ∃ b arrays w₀ loader,
      Emitter.Bridge w.types base (w.types.harvestAbstract base.id properties) properties b ∧
      w₀ = { w with types := b :: w.types, arrays := arrays, issued := w.issued + 1 } ∧
      ((∃ cause, w.emitLayers e label base interfaces properties parent = (.error cause, w₀)) ∨
        ∃ proxy w₁, e.proxy w₀ b base (w₀.types.harvest b.id (interfaces ++ [TypeId.capability]))
            interfaces loader = .ok (proxy, w₁) ∧
          w.emitLayers e label base interfaces properties parent = (.ok proxy, w₁)) := by
  cases hpairs : w.types.harvestProperties properties with
  | error fault =>
      refine .inl ⟨.property fault, w.issued, ?_⟩
      simp only [emitLayers, hpairs]
  | ok pairs =>
      have hnone : properties = [] → pairs = [] := by
        rintro rfl
        exact (Except.ok.inj hpairs).symm
      cases hbridge : e.bridge (w.addLoader label (some parent)).2 base
          (w.types.harvestAbstract base.id properties) pairs properties
          (w.addLoader label (some parent)).1 with
      | error fault =>
          refine .inl ⟨.emit fault, w.issued + 1, ?_⟩
          simp only [emitLayers, hpairs, hbridge]
          rfl
      | ok made =>
          obtain ⟨id, w₀⟩ := made
          obtain ⟨b, arrays, hb, rfl, hw₀⟩ := Emitter.bridge_eq_ok hnone hbridge
          refine .inr ⟨b, arrays, w₀, (w.addLoader label (some parent)).1, hb, hw₀, ?_⟩
          have hlookup : w₀.types.lookup? b.id = some b := by
            rw [hw₀, TypeTable.lookup?, List.find?_cons, beq_self_eq_true]
          cases hproxy : e.proxy w₀ b base (w₀.types.harvest b.id (interfaces ++ [TypeId.capability]))
              interfaces (w.addLoader label (some parent)).1 with
          | error fault =>
              refine .inl ⟨.emit fault, ?_⟩
              simp only [emitLayers, hpairs, hbridge, hlookup, hproxy]
          | ok layered =>
              refine .inr ⟨layered.1, layered.2, rfl, ?_⟩
              simp only [emitLayers, hpairs, hbridge, hlookup, hproxy]

/-- Every generated subtype is a proxy of what is harvested from a bridge. -/
theorem World.emitLayers_eq_ok {e : Emitter} {w w₁ : World} {label : String} {base : HostType}
    {interfaces properties : List TypeId} {parent : Loader} {proxy : TypeId}
    (h : w.emitLayers e label base interfaces properties parent = (.ok proxy, w₁)) :
    ∃ b arrays w₀ loader,
      Emitter.Bridge w.types base (w.types.harvestAbstract base.id properties) properties b ∧
      w₀ = { w with types := b :: w.types, arrays := arrays, issued := w.issued + 1 } ∧
      e.proxy w₀ b base (w₀.types.harvest b.id (interfaces ++ [TypeId.capability])) interfaces loader =
        .ok (proxy, w₁) := by
  rcases emitLayers_cases e label base interfaces properties parent w with
    ⟨cause, issued, heq⟩ | ⟨b, arrays, w₀, loader, hb, hw₀, ⟨cause, heq⟩ | ⟨made, w', hproxy, heq⟩⟩
  · cases heq.symm.trans h
  · cases heq.symm.trans h
  · cases heq.symm.trans h
    exact ⟨b, arrays, w₀, loader, hb, hw₀, hproxy⟩

/-! ## Bodies above a proxy -/

/-- An operation that calls and subtypes can reach may be taken over if another one of its slot may be,
unless it is final. -/
theorem Method.isOffered_of_slot {m op : Method} (hop : op.isOffered = true) (hslot : m.slot = op.slot)
    (hvirtual : m.isVirtual = true) (hfinal : m.modifiers.isFinal = false)
    (hvisible : (m.modifiers.isPublic || m.modifiers.isProtected) = true) : m.isOffered = true := by
  obtain ⟨hname, -, hparams⟩ := Slot.mk.inj hslot
  simp only [isOffered, isInterceptable, isVirtual, Bool.and_eq_true, Bool.not_eq_true'] at *
  rw [hname, hparams]
  exact ⟨hfinal, ⟨hvirtual.1, hvisible⟩, hop.2.2⟩

/-- The root class extends nothing and declares nothing, however the table of the types that are always
there grows. -/
theorem TypeTable.Numbered.lineage_root {types : TypeTable} (h : types.Numbered)
    (hstart : initial <:+ types) :
    ∃ r, types.lineage .root = [r] ∧ r.methods = [] ∧ r.interfaces = [] := by
  obtain ⟨new, rfl⟩ := hstart
  have hlookup : lookup? (new ++ initial) .root = lookup? initial .root :=
    h.lookup?_append (by decide)
  obtain ⟨r, hr, hsuper, hmethods, hinterfaces⟩ : ∃ r, lookup? initial .root = some r ∧
      r.superclass = none ∧ r.methods = [] ∧ r.interfaces = [] := ⟨_, rfl, rfl, rfl, rfl⟩
  exact ⟨r, (h.collect_eq (hlookup.trans hr) hsuper).1, hmethods, hinterfaces⟩

/-- The capability interface extends nothing and declares one operation, however the table of the types
that are always there grows. -/
theorem TypeTable.Numbered.lookup?_capability {types : TypeTable} (h : types.Numbered)
    (hstart : initial <:+ types) :
    ∃ c, types.lookup? .capability = some c ∧ collect types .capability [] = [c] ∧
      c.interfaces = [] ∧ ∀ m ∈ c.methods, m.slot = capabilitySlot ∧ m.modifiers.isFinal = false := by
  obtain ⟨new, rfl⟩ := hstart
  have hlookup : lookup? (new ++ initial) .capability = lookup? initial .capability :=
    h.lookup?_append (by decide)
  obtain ⟨c, hc, hsuper, hinterfaces, hmethods⟩ : ∃ c, lookup? initial .capability = some c ∧
      c.superclass = none ∧ c.interfaces = [] ∧
      ∀ m ∈ c.methods, m.slot = capabilitySlot ∧ m.modifiers.isFinal = false := by
    refine ⟨_, rfl, rfl, rfl, fun m hm => ?_⟩
    rw [List.mem_singleton.1 hm]
    exact ⟨rfl, by decide⟩
  obtain ⟨hlineage, hcollect⟩ := h.collect_eq (hlookup.trans hc) hsuper
  refine ⟨c, hlookup.trans hc, ?_, hinterfaces, hmethods⟩
  rw [hcollect, allInterfaces, hlineage, List.foldl_cons, hinterfaces]
  rfl

/-- What was found stays found while more is added. -/
theorem TypeTable.mem_extendFound {types : TypeTable} {stack : List TypeId} {found : List HostType}
    {t : HostType} (h : t ∈ found) : t ∈ types.extendFound stack found := by
  fun_induction TypeTable.extendFound types stack found with
  | case1 found => exact h
  | case2 found id rest hnone ih => exact ih h
  | case3 found id rest u hu hseen ih => exact ih h
  | case4 found id rest u hu hseen ih => exact ih (List.mem_append_left _ h)

/-- A type that was not found is added, and what it extends is looked at next. -/
theorem TypeTable.extendFound_cons {types : TypeTable} {id : TypeId} {rest : List TypeId}
    {found : List HostType} {t : HostType} (h : types.lookup? id = some t)
    (hnew : found.any (·.id == t.id) = false) :
    types.extendFound (id :: rest) found = types.extendFound (t.interfaces ++ rest) (found ++ [t]) := by
  rw [extendFound]
  split
  · rename_i hnone
    rw [hnone] at h
    cases h
  · rename_i s hs
    rw [hs] at h
    cases h
    rw [dif_neg (Bool.eq_false_iff.1 hnew)]

/-- An interface that extends none adds at most itself. -/
theorem TypeTable.mem_extendFound_singleton {types : TypeTable} {i : TypeId} {found : List HostType}
    {s t : HostType} (h : types.lookup? i = some t) (hnone : t.interfaces = [])
    (hs : s ∈ types.extendFound [i] found) : s ∈ found ∨ s = t := by
  cases hnew : found.any (·.id == t.id) with
  | false =>
      rw [extendFound_cons h hnew, hnone, List.nil_append, extendFound] at hs
      exact (List.mem_append.1 hs).imp_right List.mem_singleton.1
  | true =>
      rw [extendFound] at hs
      split at hs
      · rw [extendFound] at hs
        exact .inl hs
      · rename_i u hu
        rw [hu] at h
        cases h
        rw [dif_pos hnew, extendFound] at hs
        exact .inl hs

/-- One interface that extends none is looked at after those of the type, if it is not among them. -/
theorem TypeTable.harvest_singleton {types : TypeTable} {id i : TypeId} {t : HostType}
    (h : types.lookup? i = some t) (hnew : (types.allInterfaces id).any (·.id == t.id) = false)
    (hnone : t.interfaces = []) :
    types.harvest id [i] = intercept (types.lineage id ++ (types.allInterfaces id ++ [t])) := by
  rw [harvest, interfaceList, extendFound_cons h hnew, hnone, List.nil_append, extendFound]

namespace Emitter.Bridge

variable {types table : TypeTable} {base b : HostType} {properties extra : List TypeId} {op m : Method}

/-- What a layer on a type takes over may be taken over, and no final operation of the type has its
slot. -/
theorem offered_of_mem_harvest {id : TypeId} (hop : op ∈ table.harvest id extra) :
    op.isOffered = true ∧ ∀ n ∈ table.methodsOf id, n.slot = op.slot → n.modifiers.isFinal = false := by
  rw [TypeTable.harvest, mem_intercept, List.flatMap_append] at hop
  have hfirst := List.find?_some hop.2
  rw [Bool.and_eq_true] at hfirst
  refine ⟨hfirst.1, fun n hn => hop.1 n ?_⟩
  rw [TypeTable.methodsOf] at hn
  rcases List.mem_append.1 hn with hn | hn
  · exact List.mem_append_left _ hn
  · obtain ⟨t, ht, hn⟩ := List.mem_flatMap.1 hn
    exact List.mem_append_right _ (List.mem_flatMap.2 ⟨t, TypeTable.mem_extendFound ht, hn⟩)

/-- A bridge does not answer for an operation that is taken over, if that has a body below which nothing
was left without one. -/
theorem find?_methods (hb : Bridge types base (types.harvestAbstract base.id properties) properties b)
    (hclosed : ∀ n ∈ b.methods, n.slot = op.slot → n.modifiers.isFinal = false)
    (hm : ((types.lineage base.id ++ types.interfaceList base.id properties).flatMap (·.methods)).find?
      (fun n => n.isVirtual && n.occupies op.slot) = some m)
    (hoffered : m.isOffered = true) (hconcrete : m.isAbstract = false) :
    b.methods.find? (fun n => n.isVirtual && n.occupies op.slot) = none := by
  rw [List.find?_eq_none]
  intro n hn hreached
  obtain ⟨hvirtual, hslot⟩ := Method.and_occupies_iff.1 hreached
  rcases hb.methods n hn with hfinal | ⟨a, ha, haslot, hmodifiers⟩
  · rw [hclosed n hn hslot] at hfinal
    cases hfinal
  -- a stub stands for the first declaration that is offered, which the body comes before
  rw [TypeTable.harvestAbstract, List.mem_filter, TypeTable.harvest, mem_intercept] at ha
  obtain ⟨⟨-, hfirst⟩, habstract⟩ := ha
  have hfound := List.find?_some hm
  have hmslot := (Method.and_occupies_iff.1 hfound).2
  have hsame : a = m := by
    refine find?_eq_of_find? hfirst hm ?_ ?_
    · exact Method.and_occupies_iff.2 ⟨(Layer.isVirtual_of_modifiers hmodifiers) ▸ hvirtual, haslot ▸ hslot⟩
    · exact Method.and_occupies_iff.2 ⟨hoffered, hmslot.trans (hslot.symm.trans haslot)⟩
  rw [hsame, hconcrete] at habstract
  cases habstract

/-- The class chain of a bridge of a class is that of its base, with the bridge before it. -/
theorem lineage_eq (hb : Bridge types base (types.harvestAbstract base.id properties) properties b)
    (hclass : base.isInterface = false) (htable : table = b :: types) :
    table.lineage b.id = b :: types.lineage base.id := by
  rw [htable, TypeTable.lineage, if_pos rfl, hb.superclass, hclass]
  rfl

/-- The body that an operation of a base has among the first ones is the one above the proxy, if subtypes
see it. -/
theorem superTarget?_of_append
    (hb : Bridge types base (types.harvestAbstract base.id properties) properties b)
    {first rest : List Method} (hmethods : table.methodsOf b.id = b.methods ++ first ++ rest)
    (hfirst : first <+: (types.lineage base.id ++ types.interfaceList base.id properties).flatMap (·.methods))
    (hop : op ∈ table.harvest b.id extra)
    (hm : first.find? (fun n => n.isVirtual && n.occupies op.slot) = some m)
    (hconcrete : m.isAbstract = false)
    (hvisible : (m.modifiers.isPublic || m.modifiers.isProtected) = true) :
    Layer.superTarget? table b.id op = some m := by
  obtain ⟨hopOffered, hclosed⟩ := offered_of_mem_harvest hop
  rw [hmethods, List.append_assoc] at hclosed
  have hfound := List.find?_some hm
  have hreached := Method.and_occupies_iff.1 hfound
  have hmem := List.mem_append_left rest (List.mem_of_find?_eq_some hm)
  -- no final operation has the slot, or the layer above would not take it over
  have hfinal := hclosed m (List.mem_append_right _ hmem) hreached.2
  have hoffered := Method.isOffered_of_slot hopOffered hreached.2 hreached.1 hfinal hvisible
  obtain ⟨others, hothers⟩ := hfirst
  have hnone := hb.find?_methods (fun n hn => hclosed n (List.mem_append_left _ hn))
    (by rw [← hothers, List.find?_append, hm, Option.some_or]) hoffered hconcrete
  rw [Layer.superTarget?, TypeTable.findVirtual?, hmethods, List.append_assoc, List.find?_append, hnone,
    Option.none_or, List.find?_append, hm, Option.some_or, Option.filter_some, hconcrete]
  rfl

/-- The body that an operation has in the class chain of a base is the one above the proxy, if subtypes
see it. -/
theorem superTarget?_of_lineage
    (hb : Bridge types base (types.harvestAbstract base.id properties) properties b)
    (hclass : base.isInterface = false) (htable : table = b :: types)
    (hop : op ∈ table.harvest b.id extra)
    (hm : ((types.lineage base.id).flatMap (·.methods)).find?
      (fun n => n.isVirtual && n.occupies op.slot) = some m)
    (hconcrete : m.isAbstract = false)
    (hvisible : (m.modifiers.isPublic || m.modifiers.isProtected) = true) :
    Layer.superTarget? table b.id op = some m := by
  have hmethods : table.methodsOf b.id = b.methods ++ (types.lineage base.id).flatMap (·.methods) ++
      (table.allInterfaces b.id).flatMap (·.methods) := by
    rw [TypeTable.methodsOf, hb.lineage_eq hclass htable, List.flatMap_cons]
  refine hb.superTarget?_of_append hmethods ?_ hop hm hconcrete hvisible
  rw [List.flatMap_append]
  exact List.prefix_append _ _

/-- Without properties, a bridge adds its own methods to those of its base. -/
theorem methodsOf_eq {abstracts : List Method} (hb : Bridge types base abstracts [] b)
    (htable : table = b :: types) (hnumbered : table.Numbered) (hstart : TypeTable.initial <:+ types)
    (hbase : types.lookup? base.id = some base)
    (hsuper : base.isInterface = true → base.superclass = none) :
    table.methodsOf b.id = b.methods ++ types.methodsOf base.id := by
  subst htable
  have hgrown : TypeTable.Numbered ([b] ++ types) := hnumbered
  have hne : ∀ t ∈ [b], t.id ≠ base.id := fun t =>
    hgrown.ne_of_mem (hnumbered.2.2.2.index_lt (TypeTable.mem_of_lookup? hbase).1)
  have hsuperclass := hb.superclass
  have hinterfaces := hb.interfaces
  -- a bridge of a class is below it; one of an interface is below the root and extends the interface
  cases hclass : base.isInterface with
  | false =>
      rw [hclass] at hsuperclass hinterfaces
      have hlineage : TypeTable.lineage (b :: types) b.id = b :: types.lineage base.id := by
        rw [TypeTable.lineage, if_pos rfl, hsuperclass]
        rfl
      have hall : TypeTable.allInterfaces (b :: types) b.id = types.allInterfaces base.id := by
        rw [TypeTable.allInterfaces_eq, hlineage, TypeTable.gather_cons, hinterfaces]
        refine TypeTable.gather_congr fun t ht i hi found => ?_
        refine TypeTable.collect_append (fun s => hgrown.ne_of_mem ?_) found
        exact (hnumbered.2.2.2.names_lt (TypeTable.mem_of_mem_lineage ht)).2 i hi
      rw [TypeTable.methodsOf, TypeTable.methodsOf, hlineage, hall, List.flatMap_cons, List.append_assoc]
  | true =>
      rw [hclass] at hsuperclass hinterfaces
      obtain ⟨r, hroot, hrootMethods, hrootInterfaces⟩ := hnumbered.2.2.2.lineage_root hstart
      obtain ⟨hbaseLineage, hcollect⟩ := hnumbered.2.2.2.collect_eq hbase (hsuper hclass)
      have hlineage : TypeTable.lineage (b :: types) b.id = [b, r] := by
        rw [TypeTable.lineage, if_pos rfl, hsuperclass]
        exact congrArg _ hroot
      have hall : TypeTable.allInterfaces (b :: types) b.id = base :: types.allInterfaces base.id := by
        rw [TypeTable.allInterfaces, hlineage, ← hcollect, ← TypeTable.collect_append hne]
        simp only [List.foldl_cons, List.foldl_nil, hinterfaces, hrootInterfaces]
        rfl
      rw [TypeTable.methodsOf, TypeTable.methodsOf, hlineage, hall, hbaseLineage]
      simp [hrootMethods]

/-- Without properties, the body that an operation of a base has is the one above the proxy, if subtypes
see it. -/
theorem superTarget?_of_base
    (hb : Bridge types base (types.harvestAbstract base.id []) [] b) (htable : table = b :: types)
    (hnumbered : table.Numbered) (hstart : TypeTable.initial <:+ types)
    (hbase : types.lookup? base.id = some base)
    (hsuper : base.isInterface = true → base.superclass = none)
    (hop : op ∈ table.harvest b.id extra) (hm : types.findVirtual? base.id op.slot = some m)
    (hconcrete : m.isAbstract = false)
    (hvisible : (m.modifiers.isPublic || m.modifiers.isProtected) = true) :
    Layer.superTarget? table b.id op = some m := by
  have hmethods : table.methodsOf b.id = b.methods ++ types.methodsOf base.id ++ [] := by
    rw [hb.methodsOf_eq htable hnumbered hstart hbase hsuper, List.append_nil]
  refine hb.superTarget?_of_append hmethods ?_ hop hm hconcrete hvisible
  rw [TypeTable.interfaceList, TypeTable.extendFound, List.flatMap_append]
  exact List.prefix_rfl

/-- Without properties, a layer on a bridge takes over every method of the bridge. -/
theorem mem_harvest (hb : Bridge types base (types.harvestAbstract base.id []) [] b)
    (htable : table = b :: types) (hnumbered : table.Numbered) (hstart : TypeTable.initial <:+ types)
    (hbase : types.lookup? base.id = some base)
    (hsuper : base.isInterface = true → base.superclass = none) (hm : m ∈ b.methods) :
    m ∈ table.harvest b.id [TypeId.capability] := by
  -- the method is a stub of what is harvested from the base, so nothing there closes its slot
  obtain ⟨k, hk⟩ := List.getElem?_of_mem hm
  obtain ⟨a, ha, hslot, hmodifiers⟩ := getElem?_of_forall₂ (hb.stubs rfl).flip hk
  have hamem := (List.mem_filter.1 (List.mem_of_getElem? ha)).1
  obtain ⟨haoffered, hopen⟩ := offered_of_mem_harvest hamem
  have hoffered := (Layer.isOffered_of_stub hslot hmodifiers).trans haoffered
  have hunique : ∀ n ∈ b.methods, n.slot = m.slot → n = m := fun n hn h =>
    List.inj_on_of_nodup_map hb.slots hn hm h
  have hmfinal : m.modifiers.isFinal = false := by
    rw [Method.isOffered, Bool.and_eq_true, Bool.not_eq_true'] at hoffered
    exact hoffered.1
  obtain ⟨c, hc, -, hcnone, hcmethods⟩ :=
    hnumbered.lookup?_capability (hstart.trans (htable ▸ List.suffix_cons b types))
  have hmethods := hb.methodsOf_eq htable hnumbered hstart hbase hsuper
  rw [TypeTable.harvest, mem_intercept, List.flatMap_append]
  constructor
  · intro n hn hnslot
    have hreached : n ∈ table.methodsOf b.id ∨ n ∈ c.methods := by
      rw [TypeTable.methodsOf]
      rcases List.mem_append.1 hn with hn | hn
      · exact .inl (List.mem_append_left _ hn)
      · obtain ⟨s, hs, hn⟩ := List.mem_flatMap.1 hn
        rcases TypeTable.mem_extendFound_singleton hc hcnone hs with hs | rfl
        · exact .inl (List.mem_append_right _ (List.mem_flatMap.2 ⟨s, hs, hn⟩))
        · exact .inr hn
    rcases hreached with hreached | hreached
    · rw [hmethods] at hreached
      rcases List.mem_append.1 hreached with hreached | hreached
      · rw [hunique n hreached hnslot, hmfinal]
      · exact hopen n hreached (hnslot.trans hslot)
    · exact (hcmethods n hreached).2
  · have hfirst : b.methods.find? (fun n => n.isOffered && n.occupies m.slot) = some m := by
      obtain ⟨n, hmem, hn, hfound⟩ := exists_find?_of_mem (q := fun n => n.isOffered && n.occupies m.slot) hm
        (Method.and_occupies_iff.2 ⟨hoffered, rfl⟩)
      rw [hn, hunique n hmem (Method.and_occupies_iff.1 hfound).2]
    obtain ⟨rest, hlineage⟩ : ∃ rest, table.lineage b.id = b :: rest := by
      rw [htable, TypeTable.lineage, if_pos rfl]
      exact ⟨_, rfl⟩
    rw [hlineage, List.flatMap_cons, List.append_assoc, List.find?_append, hfirst, Option.some_or]

end Emitter.Bridge

end Interpose
