import Interpose.Proofs.Discovery
import Interpose.Proofs.Importing

/-!
# The supertypes of generated types

Whether a type is a subtype of a name is asked of its class chain and of the interfaces that are reached from it.
A generated subtype spreads these over two layers: an interface that it is made for becomes an interface of the
bridge, the properties are interfaces of the bridge as well, and what is requested is one of the proxy. Together the
layers reach what the base reaches with the interfaces that were asked for, besides the capability and the root.
-/

namespace Interpose

variable {e : Emitter} {w w' : World} {types : TypeTable} {base b s t : HostType} {id : TypeId}
  {interfaces properties extra interfaces' properties' : List TypeId} {pairs : List PropertyPair} {name : String}

namespace TypeTable

/-- The interfaces of a type are those reached from its class chain. -/
theorem Numbered.mem_allInterfaces (h : types.Numbered) :
    t ∈ types.allInterfaces id ↔ types.Reaches ((types.lineage id).flatMap (·.interfaces)) t := by
  rw [h.allInterfaces_eq_extendFound, mem_extendFound_nil]

/-- A type is a subtype of the root and of what it has in scope. -/
theorem Numbered.isSubtypeOf_iff (h : types.Numbered) :
    types.isSubtypeOf id name = true ↔ name = objectName ∨ ∃ t, types.InScope id [] t ∧ t.name = name := by
  simp only [isSubtypeOf, Bool.or_eq_true, beq_iff_eq, List.any_eq_true, InScope, List.append_nil,
    h.mem_allInterfaces, or_and_right, exists_or, or_assoc]

/-- The class chain of the root is the root. -/
theorem Numbered.name_of_mem_lineage_root (h : types.Numbered) (hstart : initial <:+ types)
    (ht : t ∈ types.lineage .root) : t.name = objectName := by
  obtain ⟨new, rfl⟩ := hstart
  have hroot : (TypeId.root).index < TypeTable.initial.length := by decide
  rw [lineage_append fun _ => h.ne_of_mem hroot] at ht
  revert t
  decide

/-- The names that a subtype of a base with further interfaces goes by. -/
inductive GoesBy (types : TypeTable) (base : HostType) (asked : List TypeId) : String → Prop
  | root : GoesBy types base asked objectName
  | layer (role : Role) : GoesBy types base asked (Naming.layer base.name role)
  | capability : GoesBy types base asked capabilityName
  /-- The base or a superclass of it. -/
  | chain {s : HostType} (hs : s ∈ types.lineage base.id) : GoesBy types base asked s.name
  /-- An interface of the class chain or one that was asked for, or an interface that one of these extends. -/
  | reached {s : HostType} (hs : types.Reaches ((types.lineage base.id).flatMap (·.interfaces) ++ asked) s) :
      GoesBy types base asked s.name

/-- A subtype goes by the names of what its base has in scope. -/
theorem goesBy_iff {asked : List TypeId} : types.GoesBy base asked name ↔ name = objectName ∨
    (∃ role, name = Naming.layer base.name role) ∨ name = capabilityName ∨
      ∃ s, types.InScope base.id asked s ∧ s.name = name := by
  constructor
  · rintro (_ | role | _ | hs | hs)
    · exact .inl rfl
    · exact .inr (.inl ⟨role, rfl⟩)
    · exact .inr (.inr (.inl rfl))
    · exact .inr (.inr (.inr ⟨_, .inl hs, rfl⟩))
    · exact .inr (.inr (.inr ⟨_, .inr hs, rfl⟩))
  · rintro (rfl | ⟨role, rfl⟩ | rfl | ⟨s, hs | hs, rfl⟩)
    · exact .root
    · exact .layer role
    · exact .capability
    · exact .chain hs
    · exact .reached hs

/-- Above the layers on a base there are the types that the base has in scope, and the root. -/
theorem Numbered.reaches_above_cases (h : types.Numbered) (hstart : initial <:+ types)
    (hbase : types.lookup? base.id = some base) (hsuper : base.isInterface = true → base.superclass = none)
    (hs : s ∈ types.lineage (Layer.bridgeSuperclass base) ∨
      types.Reaches (Layer.bridgeInterfaces base properties ++ extra ++
        (types.lineage (Layer.bridgeSuperclass base)).flatMap (·.interfaces)) s) :
    s.name = objectName ∨ types.InScope base.id (properties ++ extra) s := by
  cases hclass : base.isInterface with
  | false => exact .inr ((reaches_above_of_class hclass).1 hs)
  | true =>
      refine ((h.reaches_above_of_interface hstart hbase hclass).1 hs).imp (h.name_of_mem_lineage_root hstart) ?_
      have hlineage := (h.collect_eq hbase (hsuper hclass)).1
      simp only [InScope, hlineage, List.mem_singleton, List.flatMap_cons, List.flatMap_nil, List.append_nil, imp_self]

/-- What a base has in scope is above the layers on it. -/
theorem Numbered.reaches_above_of_inScope (h : types.Numbered) (hstart : initial <:+ types)
    (hbase : types.lookup? base.id = some base) (hsuper : base.isInterface = true → base.superclass = none)
    (hs : types.InScope base.id (properties ++ extra) s) :
    s ∈ types.lineage (Layer.bridgeSuperclass base) ∨
      types.Reaches (Layer.bridgeInterfaces base properties ++ extra ++
        (types.lineage (Layer.bridgeSuperclass base)).flatMap (·.interfaces)) s := by
  cases hclass : base.isInterface with
  | false => exact (reaches_above_of_class hclass).2 hs
  | true =>
      refine (h.reaches_above_of_interface hstart hbase hclass).2 (.inr ?_)
      have hlineage := (h.collect_eq hbase (hsuper hclass)).1
      simpa only [InScope, hlineage, List.mem_singleton, List.flatMap_cons, List.flatMap_nil, List.append_nil] using hs

end TypeTable

/-! ## On request -/

namespace World.Answered

variable {older : TypeTable} {w₀ : World}
  (h : w'.Answered e older w₀ base interfaces properties interfaces' properties' pairs b t)

include h

/-- The layers have the names that are made for the base. -/
theorem names_eq : t.name = Naming.layer base.name .proxy ∧ b.name = Naming.layer base.name .bridge := by
  obtain ⟨d, hd, hdefines⟩ := h.built.bridge
  obtain ⟨_, _, _, -, -, -, rfl⟩ := Layer.bridgeDef_eq_ok_iff.1 hd
  exact ⟨h.stands.proxy.name, hdefines.name⟩

variable (hgrown : w.types <:+ w'.types) (hs : w.Sane)
  (hdeclared : ∀ i ∈ base.id :: (interfaces ++ properties), i.index < w.types.length)
  (hsuper : base.isInterface = true → base.superclass = none)

include hgrown hs hdeclared hsuper

/-- A subtype has in scope what its base has there with the interfaces that were asked for and the capability. -/
theorem inScope_of_base (hscope : w.types.InScope base.id (interfaces ++ properties ++ [.capability]) s) :
    w'.types.InScope t.id [] s := by
  obtain ⟨new, -, hnumbered, -⟩ := h.stands.grown_base
  have hinterfaces : ∀ i ∈ interfaces', i.index < older.length :=
    fun i hi => h.declared i (List.mem_append_left _ hi)
  rw [h.stands.inScope_iff hinterfaces]
  refine .inr (.inr (.inl ?_))
  exact hnumbered.of_append.reaches_above_of_inScope h.stands.start h.stands.base hsuper
    ((h.inScope_iff hgrown hs.start hdeclared).2 hscope)

/-- Besides that a subtype has its layers and the root in scope. -/
theorem inScope_cases (hscope : w'.types.InScope t.id [] s) : s = t ∨ s = b ∨ s.name = objectName ∨
    w.types.InScope base.id (interfaces ++ properties ++ [.capability]) s := by
  obtain ⟨new, -, hnumbered, -⟩ := h.stands.grown_base
  have hinterfaces : ∀ i ∈ interfaces', i.index < older.length :=
    fun i hi => h.declared i (List.mem_append_left _ hi)
  rcases (h.stands.inScope_iff hinterfaces).1 hscope with rfl | rfl | habove | hnone
  · exact .inl rfl
  · exact .inr (.inl rfl)
  · refine .inr (.inr ?_)
    exact (hnumbered.of_append.reaches_above_cases h.stands.start h.stands.base hsuper habove).imp_right
      (h.inScope_iff hgrown hs.start hdeclared).1
  · exact absurd hnone TypeTable.not_reaches_nil

/-- A subtype is a subtype of the names that it goes by. -/
theorem isSubtypeOf_iff :
    w'.types.isSubtypeOf t.id name = true ↔ w.types.GoesBy base (interfaces ++ properties) name := by
  obtain ⟨c, -, hc, hcname, -, -, -, -, hcapability⟩ := hs.numbered.exists_capability hs.start
  obtain ⟨hproxy, hbridge⟩ := h.names_eq
  have hlineage := h.stands.lineage_layers
  rw [h.stands.numbered.isSubtypeOf_iff]
  constructor
  · rintro (rfl | ⟨s, hscope, rfl⟩)
    · exact .root
    rcases h.inScope_cases hgrown hs hdeclared hsuper hscope with rfl | rfl | hroot | hchain | hreached
    · exact hproxy ▸ .layer .proxy
    · exact hbridge ▸ .layer .bridge
    · exact hroot ▸ .root
    · exact .chain hchain
    · rw [← List.append_assoc, TypeTable.reaches_append] at hreached
      rcases hreached with hreached | hreached
      · exact .reached hreached
      · rw [hcapability s hreached, hcname]
        exact .capability
  · have hbase {s : HostType} (hscope : w.types.InScope base.id (interfaces ++ properties) s) :
        w'.types.InScope t.id [] s :=
      h.inScope_of_base hgrown hs hdeclared hsuper (hscope.mono fun i => List.mem_append_left _)
    rintro (_ | role | _ | hchain | hreached)
    · exact .inl rfl
    · cases role with
      | bridge => exact .inr ⟨b, .inl (hlineage ▸ List.mem_cons_of_mem _ List.mem_cons_self), hbridge⟩
      | proxy => exact .inr ⟨t, .inl (hlineage ▸ List.mem_cons_self), hproxy⟩
    · refine .inr ⟨c, h.inScope_of_base hgrown hs hdeclared hsuper (.inr (.named ?_ hc)), hcname⟩
      simp
    · exact .inr ⟨_, hbase (.inl hchain), rfl⟩
    · exact .inr ⟨_, hbase (.inr hreached), rfl⟩

end World.Answered

/-- An object is accepted by the reference types that its class is a subtype of. -/
theorem TypeTable.accepts_object_iff {τ : ValueType} {o : ObjectRef} :
    types.accepts τ (.object o) = true ↔ ∃ name, τ = .reference name ∧ types.isSubtypeOf o.cls name = true := by
  cases τ <;> simp [accepts, isOfType]

/-- A subtype that is generated on request is a subtype of the root, of its two layers, of the capability, of its base
and the superclasses of it, and of the interfaces that are reached from these and from those that were asked for, and
of no other name. So its objects are accepted by the reference types of these names only, and wherever objects of the
base are. -/
theorem World.isSubtypeOf_createExtensionType {p : PlatformId} {proxy : TypeId} {parent : Loader} (hs : w.Sane)
    (hp : p.index < w.platforms.size)
    (hdeclared : ∀ i ∈ base.id :: (interfaces ++ properties), i.index < w.types.length)
    (hbase : w.types.lookup? base.id = some base)
    (hsuper : base.isInterface = true → base.superclass = none)
    (h : w.createExtensionType p base.id interfaces properties parent = (.ok proxy, w')) :
    (∀ name, w'.types.isSubtypeOf proxy name = true ↔ w.types.GoesBy base (interfaces ++ properties) name) ∧
    (∀ (o : ObjectRef) (τ : ValueType), o.cls = proxy → (w'.types.accepts τ (.object o) = true ↔
      ∃ name, τ = .reference name ∧ w.types.GoesBy base (interfaces ++ properties) name)) ∧
    ∀ (o o' : ObjectRef) (τ : ValueType), o.cls = proxy → o'.cls = base.id →
      w'.types.accepts τ (.object o') = true → w'.types.accepts τ (.object o) = true := by
  obtain ⟨hlater, -⟩ := later_createExtensionType (w := w) p parent fun _ => hdeclared
  rw [h] at hlater
  obtain ⟨e, older, w₀, interfaces', properties', pairs, b, t, rfl, ha⟩ :=
    answered_of_createExtensionType hs hp hdeclared hbase h
  have hiff (name : String) : w'.types.isSubtypeOf t.id name = true ↔
      w.types.GoesBy base (interfaces ++ properties) name := ha.isSubtypeOf_iff hlater.types hs hdeclared hsuper
  refine ⟨hiff, fun o τ ho => ?_, fun o o' τ ho ho' haccepts => ?_⟩
  · rw [TypeTable.accepts_object_iff, ho]
    exact exists_congr fun name => and_congr_right fun _ => hiff name
  · obtain ⟨name, rfl, hname⟩ := TypeTable.accepts_object_iff.1 haccepts
    refine TypeTable.accepts_object_iff.2 ⟨name, rfl, ?_⟩
    rw [ho, hiff, TypeTable.goesBy_iff]
    -- what the base is a subtype of is in its own scope
    obtain ⟨grown, hgrown⟩ := hlater.types
    have hnumbered : TypeTable.Numbered (grown ++ w.types) := hgrown ▸ ha.stands.numbered
    rw [ho', ha.stands.numbered.isSubtypeOf_iff, ← hgrown] at hname
    rcases hname with rfl | ⟨s, hscope, rfl⟩
    · exact .inl rfl
    · rw [hnumbered.inScope_append (hdeclared _ List.mem_cons_self) fun i hi => absurd hi List.not_mem_nil] at hscope
      exact .inr (.inr (.inr ⟨s, hscope.mono fun i hi => absurd hi List.not_mem_nil, rfl⟩))

/-! ## A stone that is cut -/

/-- An interface that extends two interfaces which extend the same one. -/
def gem : HostType := TypeTable.facet ⟨6⟩ "Gem" .iface none [⟨3⟩, ⟨4⟩]

/-- A world with the interfaces and with a class that has one of them. -/
def gemWorld : World := { World.initial {} with types := TypeTable.gemTypes }

theorem sane_gemWorld : gemWorld.Sane :=
  World.sane_of_types _ TypeTable.numbered_gemTypes ⟨[_, _, _, _, _], rfl⟩

/-- A subtype of the interface, for one of those that it extends and with the other one beside it, is a subtype of the
one that meets in them, and not of the class. -/
theorem World.isSubtypeOf_createExtensionType_gem : ∃ proxy w',
    gemWorld.createExtensionType .first gem.id [⟨3⟩] [⟨4⟩] .system = (.ok proxy, w') ∧
    w'.types.isSubtypeOf proxy "Shape" = true ∧ w'.types.isSubtypeOf proxy "Prism" = false := by
  have hinterfaces : ∀ i ∈ [(⟨3⟩ : TypeId)] ++ [⟨4⟩], ∀ t, gemWorld.types.lookup? i = some t → t.isInterface = true := by
    simp only [List.singleton_append, List.mem_cons, List.not_mem_nil, or_false]
    rintro i (rfl | rfl) t ht
    · cases ht
      rfl
    · cases ht
      rfl
  have hbase : gemWorld.types.lookup? gem.id = some gem := rfl
  obtain ⟨proxy, w', h⟩ := exists_createExtensionType_of_fits .system sane_gemWorld nofun (by decide) hbase
    (TypeTable.modest_of_forall (by decide) (by decide)).fits hinterfaces rfl (.inl rfl)
  have hplatform : PlatformId.first.index < gemWorld.platforms.size := by decide
  obtain ⟨hiff, -, -⟩ := isSubtypeOf_createExtensionType sane_gemWorld hplatform (by decide) hbase (fun _ => rfl) h
  refine ⟨proxy, w', h, ?_, ?_⟩
  · have hclear : gemWorld.types.Reaches ((gemWorld.types.lineage gem.id).flatMap (·.interfaces) ++ ([⟨3⟩] ++ [⟨4⟩]))
        (TypeTable.facet ⟨4⟩ "Clear" .iface none [⟨2⟩]) :=
      .named (i := ⟨4⟩) (by decide) rfl
    exact (hiff "Shape").2 (.reached (.extended (i := ⟨2⟩) hclear (by decide) rfl))
  · rw [Bool.eq_false_iff, Ne, hiff, TypeTable.goesBy_iff]
    rintro (hroot | ⟨role, hlayer⟩ | hcapability | ⟨s, hscope, hname⟩)
    · exact absurd hroot (by decide)
    · exact Naming.layer_ne (by decide) hlayer.symm
    · exact absurd hcapability (by decide)
    · -- what is in scope is walked through
      have hplain : ∀ u ∈ gemWorld.types.lineage gem.id ++ gemWorld.types.walk
          ((gemWorld.types.lineage gem.id).flatMap (·.interfaces) ++ ([⟨3⟩] ++ [⟨4⟩])) [], u.name ≠ "Prism" := by decide
      rw [TypeTable.InScope, ← TypeTable.mem_extendFound_nil, sane_gemWorld.numbered.extendFound_eq_walk,
        ← List.mem_append] at hscope
      exact hplain s hscope hname

end Interpose
