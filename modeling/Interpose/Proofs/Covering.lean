import Interpose.Proofs.Finals
import Interpose.Proofs.Nesting
import Interpose.Proofs.Overloads

/-!
# Operations without bodies

A subtype has a body for every slot of its base and its interfaces: a thunk, or the accessor of a property. It leaves
aside the hook that is called when an object goes, and the slots of final declarations. So no other call on it reaches
an operation without a body.
-/

namespace Interpose

/-- Whether an operation has a body, whatever its modifiers say. -/
def Method.hasBody (m : Method) : Bool :=
  match m.body with
  | .abstract => false
  | .native _ | .compiled _ => true

/-! ## How operations without bodies are declared -/

/-- Whether operations without bodies are declared as such: public and abstract, and nothing else. -/
def TypeTable.DeclaresOpenly (types : TypeTable) : Prop :=
  ∀ t ∈ types, ∀ m ∈ t.methods, m.hasBody = false → m.modifiers = .public ||| .abstract

instance : DecidablePred TypeTable.DeclaresOpenly :=
  fun types => inferInstanceAs (Decidable (∀ t ∈ types, ∀ m ∈ t.methods, m.hasBody = false →
    m.modifiers = .public ||| .abstract))

namespace TypeTable.DeclaresOpenly

variable {types : TypeTable} {t : HostType}

theorem add (h : types.DeclaresOpenly) (hbodies : ∀ m ∈ t.methods, m.hasBody = true) :
    DeclaresOpenly (t :: types) := by
  refine List.forall_mem_cons.2 ⟨fun m hm hnone => ?_, h⟩
  rw [hbodies m hm] at hnone
  cases hnone

/-- Declaring a type keeps it so. -/
theorem addTo (h : types.DeclaresOpenly) (d : TypeDecl) : (d.addTo types).2.DeclaresOpenly := by
  refine List.forall_mem_cons.2 ⟨fun m hm hnone => ?_, h⟩
  obtain ⟨c, -, rfl⟩ := List.mem_map.1 hm
  rw [TypeDecl.method] at hnone ⊢
  cases hbody : c.body with
  | none => rfl
  | some run =>
      rw [hbody] at hnone
      cases hnone

theorem initial : TypeTable.initial.DeclaresOpenly :=
  addTo (addTo (List.forall_mem_nil _) _) _

end TypeTable.DeclaresOpenly

/-- What a type that was defined has of its own has a body. -/
theorem Emitter.Defines.hasBody {e : Emitter} {types : TypeTable} {d : ClassDef} {t : HostType} {m : Method}
    (h : e.Defines types d t) (hm : m ∈ t.methods) : m.hasBody = true := by
  obtain ⟨_, _, hmade⟩ := exists_of_forall₂ h.methods hm
  obtain ⟨_, -, rfl⟩ := Emitter.method_eq_ok.1 hmade
  rfl

namespace World

variable {w w' : World}

/-- Defining a class keeps operations without bodies declared as such. -/
theorem declaresOpenly_of_define {e : Emitter} {d : ClassDef} {loader : Loader} {id : TypeId}
    (hopenly : w.types.DeclaresOpenly) (h : e.define w d loader = .ok (id, w')) : w'.types.DeclaresOpenly := by
  obtain ⟨t, _, ht, -, rfl⟩ := Emitter.defines_of_define h
  exact hopenly.add fun m hm => ht.hasBody hm

/-- So do requests. -/
theorem declaresOpenly_createExtensionType (p : PlatformId) (base : TypeId) (interfaces properties : List TypeId)
    (parent : Loader) (hopenly : w.types.DeclaresOpenly) :
    (w.createExtensionType p base interfaces properties parent).2.types.DeclaresOpenly := by
  have hkept : KeptByLayers (·.types.DeclaresOpenly) := by
    refine ⟨fun h _ hbridge => ?_, fun h _ hproxy => ?_, fun h htypes _ _ _ _ => htypes ▸ h⟩
    · obtain ⟨_, -, hdefine⟩ := bind_eq_ok.1 hbridge
      exact declaresOpenly_of_define h hdefine
    · obtain ⟨_, -, hdefine⟩ := bind_eq_ok.1 hproxy
      exact declaresOpenly_of_define h hdefine
  exact hkept.createExtensionType p base interfaces properties parent hopenly

end World

/-! ## What subtypes leave aside -/

/-- Whether a slot is kept from being taken over, or from being reached as it is taken over: it is that of the hook
that is called when an object goes, it has a final declaration, or one that is private besides being public or
protected. -/
def TypeTable.Withholds (types : TypeTable) (base : TypeId) (extra : List TypeId) (s : Slot) : Prop :=
  (s.name = teardownName ∧ s.params = []) ∨ ∃ m, types.Declares base extra m ∧ m.slot = s ∧
    (m.modifiers.isFinal = true ∨ m.isOffered = true ∧ m.modifiers.isPrivate = true)

/-- Whether a slot is left aside by subtypes of a base: it is withheld, and the class chain has no body for it. -/
def TypeTable.LeavesAside (types : TypeTable) (base : HostType) (extra : List TypeId) (s : Slot) : Prop :=
  types.Withholds base.id extra s ∧
    ∀ m, ((types.lineage (Layer.bridgeSuperclass base)).flatMap (·.methods)).find?
      (fun m => m.isVirtual && m.occupies s) = some m → m.hasBody = false

variable {types older : TypeTable} {e : Emitter} {w w' w'' w₀ : World} {base b t : HostType}
  {interfaces properties interfaces' properties' extra : List TypeId} {pairs : List PropertyPair} {m n : Method}
  {s : Slot} {p : PlatformId} {parent : Loader} {proxy : TypeId} {o : ObjectRef}

/-- What has no body and is not withheld may be taken over. -/
theorem TypeTable.DeclaresOpenly.isOffered (h : types.DeclaresOpenly) (hm : types.Declares base.id extra m)
    (hnone : m.hasBody = false) (hopen : ¬types.Withholds base.id extra m.slot) : m.isOffered = true := by
  obtain ⟨u, hu, hmem⟩ := hm
  have hmodifiers := h u hu.mem m hmem hnone
  refine Method.isOffered_iff.2 ⟨?_, ?_, .inl ?_, fun hook => hopen (.inl hook)⟩ <;> rw [hmodifiers] <;> decide

namespace World.Answered

section

variable (h : w'.Answered e older w₀ base interfaces properties interfaces' properties' pairs b t)

include h

/-- What the layers of a subtype have has a body. -/
theorem hasBody_of_mem (hm : m ∈ t.methods ++ b.methods) : m.hasBody = true := by
  obtain ⟨_, -, hb⟩ := h.built.bridge
  obtain ⟨_, -, ht⟩ := h.built.proxy
  exact (List.mem_append.1 hm).elim ht.hasBody hb.hasBody

/-- What an answer was is one as long as types are only added. -/
theorem later (hgrown : w'.types <:+ w''.types) (hnumbered : w''.types.Numbered) :
    w''.Answered e older w₀ base interfaces properties interfaces' properties' pairs b t :=
  { h with stands := h.stands.later hgrown hnumbered }

/-- Calls of a slot that a subtype lists reach its thunk if they reach what the thunk takes over. -/
theorem findVirtual?_thunk {i : Nat}
    (hop : (w₀.types.harvest b.id (dedupIds interfaces' ++ [.capability]))[i]? = some m)
    (hvirtual : m.isVirtual = true) :
    ∃ n, t.methods[2 * i]? = some n ∧ n.slot = m.slot ∧ w'.types.findVirtual? t.id m.slot = some n := by
  obtain ⟨_, _, -, -, hthunk⟩ := h.stands.proxy.dispatching hop
  exact ⟨_, hthunk, rfl, TypeTable.findVirtual?_of_mem h.stands.lookup h.stands.proxy.slots
    (List.mem_of_getElem? hthunk) ((Layer.isVirtual_of_modifiers rfl).trans hvirtual)⟩

variable (hgrown : w.types <:+ w'.types) (hstart : TypeTable.initial <:+ w.types)
  (hdeclared : ∀ i ∈ base.id :: (interfaces ++ properties), i.index < w.types.length)

include hgrown hstart hdeclared

/-- What is reached above the layers is declared by the base or by one of the interfaces. -/
theorem declares_of_reached (hm : older.reached? base (dedupIds interfaces' ++ [.capability] ++
      Layer.bridgeInterfaces base properties') s = some m) :
    w.types.Declares base.id (interfaces ++ properties ++ [.capability]) m := by
  obtain ⟨new, -, hnumbered, -⟩ := h.stands.grown_base
  have hmem := List.mem_of_find?_eq_some hm
  obtain ⟨u, hu, hmem⟩ := List.mem_flatMap.1 hmem
  rw [List.mem_append, TypeTable.mem_extendFound_nil] at hu
  refine (h.declares_iff hgrown hstart hdeclared).1 ?_
  refine hnumbered.of_append.declares_of_above h.stands.start h.stands.base ?_
  exact (TypeTable.above_congr fun i => by simp only [List.mem_append]; tauto).1 ⟨u, hu, hmem⟩

variable (hsuper : base.isInterface = true → base.superclass = none)

include hsuper

/-- What the layers have for an accessor of a property is final. -/
theorem isFinal_of_property (hproperty : m.slot ∈ pairs.flatMap fun p => [p.getter.slot, p.setter.slot])
    (hm : m ∈ t.methods ++ b.methods) : m.modifiers.isFinal = true := by
  rcases List.mem_append.1 hm with hm | hm
  · by_contra hopen
    rw [Bool.not_eq_true] at hopen
    exact ((h.mem_slots hgrown hstart hdeclared hsuper).1 (h.mem_slots_of_own hm hopen)).2.2 hproperty
  · obtain ⟨k, hk, hslot, hmodifiers⟩ := h.built.exists_own hproperty
    rw [List.inj_on_of_nodup_map h.stands.bridge.slots hm hk hslot.symm, hmodifiers]
    decide

variable (hopenly : w.types.DeclaresOpenly)

include hopenly

/-- **Coverage.** For each slot that is declared without a body and not withheld, calls reach the accessor of a property
or the thunk of the operation that stands for the slot. -/
theorem exists_cover (hm : w.types.Declares base.id (interfaces ++ properties ++ [.capability]) m)
    (hnone : m.hasBody = false)
    (hopen : ¬w.types.Withholds base.id (interfaces ++ properties ++ [.capability]) m.slot) :
    ∃ n ∈ t.methods ++ b.methods, n.slot = m.slot ∧ w'.types.findVirtual? t.id m.slot = some n ∧
      (m.slot ∈ (pairs.flatMap fun p => [p.getter.slot, p.setter.slot]) ∧ n.modifiers.isFinal = true ∨
        ∃ i op, (w₀.types.harvest b.id (dedupIds interfaces' ++ [.capability]))[i]? = some op ∧
          op.slot = m.slot ∧ t.methods[2 * i]? = some n) := by
  by_cases hproperty : m.slot ∈ pairs.flatMap fun p => [p.getter.slot, p.setter.slot]
  · obtain ⟨n, hn, hslot, hfound⟩ := h.exists_findVirtual? (.inl hproperty)
    have hfinal := h.isFinal_of_property hgrown hstart hdeclared hsuper (hslot ▸ hproperty) hn
    exact ⟨n, hn, hslot, hfound, .inl ⟨hproperty, hfinal⟩⟩
  have hlisted := (h.mem_slots hgrown hstart hdeclared hsuper).2
    ⟨⟨m, hm, rfl, hopenly.isOffered hm hnone hopen⟩, fun n hn hslot => ?_, hproperty⟩
  · obtain ⟨op, hop, hslot⟩ := List.mem_map.1 hlisted
    have hvirtual := h.isVirtual_of_mem hgrown hstart hdeclared (fun n hn hsame hoffered => ?_) hop
    · obtain ⟨i, hi⟩ := List.getElem?_of_mem hop
      obtain ⟨n, hn, hnslot, hfound⟩ := h.findVirtual?_thunk hi hvirtual
      rw [hslot] at hnslot hfound
      exact ⟨n, List.mem_append_left _ (List.mem_of_getElem? hn), hnslot, hfound, .inr ⟨i, op, hi, hslot, hn⟩⟩
    · rw [Method.isVirtual, (Method.isOffered_iff.1 hoffered).2.1, Bool.not_false, Bool.true_and,
        Bool.not_eq_true', ← Bool.not_eq_true]
      exact fun hprivate => hopen (.inr ⟨n, hn, hsame.trans hslot, .inr ⟨hoffered, hprivate⟩⟩)
  · rw [← Bool.not_eq_true]
    exact fun hfinal => hopen (.inr ⟨n, hn, hslot, .inl hfinal⟩)

/-- Calls on a subtype only reach operations that have a body, unless the slot is left aside. -/
theorem hasBody_of_findVirtual?
    (hopen : ¬w.types.LeavesAside base (interfaces ++ properties ++ [.capability]) s)
    (hfound : w'.types.findVirtual? t.id s = some m) : m.hasBody = true := by
  by_contra hnone
  rw [Bool.not_eq_true] at hnone
  -- it is none of the layers, so it is what is reached above them
  have hreached := hfound
  rw [h.stands.findVirtual?_eq fun i hi => h.declared i (List.mem_append_left _ hi)] at hreached
  cases hown : (t.methods ++ b.methods).find? fun m => m.isVirtual && m.occupies s with
  | some k =>
      rw [hown, Option.some_or] at hreached
      cases hreached
      rw [h.hasBody_of_mem (List.mem_of_find?_eq_some hown)] at hnone
      cases hnone
  | none =>
      rw [hown, Option.none_or] at hreached
      have hslot := TypeTable.slot_of_findVirtual? hfound
      have hm := h.declares_of_reached hgrown hstart hdeclared hreached
      by_cases hwithheld : w.types.Withholds base.id (interfaces ++ properties ++ [.capability]) s
      · refine hopen ⟨hwithheld, fun k hk => ?_⟩
        rw [← (h.above_eq (s := s) hgrown hstart hdeclared).2.1] at hk
        rw [TypeTable.reached?_of_chain hk] at hreached
        cases hreached
        exact hnone
      · obtain ⟨n, hn, -, hcover, -⟩ := h.exists_cover hgrown hstart hdeclared hsuper hopenly hm hnone
          (hslot ▸ hwithheld)
        rw [hslot, hfound] at hcover
        cases hcover
        rw [h.hasBody_of_mem hn] at hnone
        cases hnone

end

end World.Answered

/-! ## Calls on subtypes -/

/-- A virtual call of a slot runs what is found, or finds nothing. -/
theorem Runner.invoke_cases (run : Runner) (w : World) (o : ObjectRef) (s : Slot) (args : List Value) :
    (∃ m, w.types.findVirtual? o.cls s = some m ∧ run.invoke o s args w = run (.method m o args) w) ∨
    run.invoke o s args w =
      (.error (.raised (.noSuchMethod (w.types.nameOf o.cls ++ "." ++ s.text))), w) := by
  rw [invoke, Action.bind_apply_ok (Action.get_apply w)]
  cases hfound : w.types.findVirtual? o.cls s with
  | some m => exact .inl ⟨m, rfl, rfl⟩
  | none => exact .inr rfl

/-- So does a call by name. -/
theorem Runner.call_cases (run : Runner) (w : World) (o : ObjectRef) (name : String) (args : List Value) :
    (∃ m, w.types.findMethodFor? o.cls name args = some m ∧ run.call o name args w = run (.method m o args) w) ∨
    run.call o name args w =
      (.error (.raised (.noSuchMethod (callText w.types o.cls name args.length))), w) := by
  cases hfound : w.types.findMethodFor? o.cls name args with
  | some m => exact .inl ⟨m, rfl, run.call_of_found hfound⟩
  | none =>
      refine .inr ?_
      rw [call, Action.bind_apply_ok (Action.get_apply w)]
      simp only [hfound]
      rfl

/-- **Operations without bodies.** In a sane world in which these are declared as such, a subtype answers each slot of
its base and its interfaces that is declared without a body by a thunk of its own or by the accessor of a property,
which is final, or else withholds the slot. While types are added, what calls of a slot or by name reach on it has a
body, so that a call runs that or finds nothing, unless the slot is left aside. -/
theorem World.hasBody_of_reached (hs : w.Sane) (hp : p.index < w.platforms.size)
    (hdeclared : ∀ i ∈ base.id :: (interfaces ++ properties), i.index < w.types.length)
    (hbase : w.types.lookup? base.id = some base)
    (hsuper : base.isInterface = true → base.superclass = none) (hopenly : w.types.DeclaresOpenly)
    (h : w.createExtensionType p base.id interfaces properties parent = (.ok proxy, w')) :
    ∃ pairs operations t b, w.types.harvestProperties properties = .ok pairs ∧
      (w'.types.proxy? proxy).map (·.operations) = some operations ∧
      w'.types.lineage proxy = t :: b :: w.types.lineage (Layer.bridgeSuperclass base) ∧
      (∀ m, w.types.Declares base.id (interfaces ++ properties ++ [.capability]) m → m.hasBody = false →
        ¬w.types.Withholds base.id (interfaces ++ properties ++ [.capability]) m.slot →
        ∃ n ∈ t.methods ++ b.methods, n.slot = m.slot ∧ n.hasBody = true ∧
          w'.types.findVirtual? proxy m.slot = some n ∧
          ((∃ pair ∈ pairs, m.slot = pair.getter.slot ∨ m.slot = pair.setter.slot) ∧
              n.modifiers.isFinal = true ∨
            ∃ i op, operations[i]? = some op ∧ op.slot = m.slot ∧ t.methods[2 * i]? = some n)) ∧
      ∀ w'', w'.types <:+ w''.types → w''.types.Numbered →
        (∀ s m, ¬w.types.LeavesAside base (interfaces ++ properties ++ [.capability]) s →
          w''.types.findVirtual? proxy s = some m → m.hasBody = true) ∧
        (∀ name args m, w''.types.findMethodFor? proxy name args = some m →
          ¬w.types.LeavesAside base (interfaces ++ properties ++ [.capability]) m.slot → m.hasBody = true) ∧
        ∀ (run : Runner) (o : ObjectRef), o.cls = proxy →
          (∀ s args, ¬w.types.LeavesAside base (interfaces ++ properties ++ [.capability]) s →
            (∃ m, m.slot = s ∧ m.hasBody = true ∧ run.invoke o s args w'' = run (.method m o args) w'') ∨
            run.invoke o s args w'' =
              (.error (.raised (.noSuchMethod (w''.types.nameOf proxy ++ "." ++ s.text))), w'')) ∧
          ∀ name args,
            (∃ m, (¬w.types.LeavesAside base (interfaces ++ properties ++ [.capability]) m.slot → m.hasBody = true) ∧
              run.call o name args w'' = run (.method m o args) w'') ∨
            run.call o name args w'' =
              (.error (.raised (.noSuchMethod (Runner.callText w''.types proxy name args.length))), w'') := by
  obtain ⟨hlater, -⟩ := later_createExtensionType (w := w) p parent fun _ => hdeclared
  rw [h] at hlater
  obtain ⟨e, older, w₀, interfaces', properties', pairs, b, t, rfl, ha⟩ :=
    answered_of_createExtensionType hs hp hdeclared hbase h
  obtain ⟨pairs', hpairs, hshapes⟩ := ha.harvestProperties hlater.types fun i hi =>
    (List.forall_mem_cons.1 hdeclared).2 i (List.mem_append_right _ hi)
  refine ⟨pairs', _, t, b, hpairs, ha.stands.operations, ?_, fun m hm hnone hopen => ?_,
    fun w'' hgrown hnumbered => ?_⟩
  · rw [ha.stands.lineage_layers, (ha.above_eq hlater.types hs.start hdeclared (s := default)).2.1]
  · obtain ⟨n, hn, hslot, hfound, hcover⟩ :=
      ha.exists_cover hlater.types hs.start hdeclared hsuper hopenly hm hnone hopen
    refine ⟨n, hn, hslot, ha.hasBody_of_mem hn, hfound, hcover.imp_left fun ⟨hproperty, hfinal⟩ => ⟨?_, hfinal⟩⟩
    rw [← PropertyPair.slots_eq hshapes] at hproperty
    simpa using hproperty
  have hfound {s : Slot} {m : Method} (hopen) (hm : w''.types.findVirtual? t.id s = some m) : m.hasBody = true :=
    (ha.later hgrown hnumbered).hasBody_of_findVirtual? (hlater.types.trans hgrown) hs.start hdeclared hsuper
      hopenly hopen hm
  have hnamed {name : String} {args : List Value} {m : Method} (hm : w''.types.findMethodFor? t.id name args = some m)
      (hopen) : m.hasBody = true := hfound hopen (TypeTable.findVirtual?_of_findMethodFor? hm)
  refine ⟨fun s m => hfound, fun name args m => hnamed, fun run o hcls => ⟨fun s args hopen => ?_,
    fun name args => ?_⟩⟩
  · have hcases := run.invoke_cases w'' o s args
    rw [hcls] at hcases
    exact hcases.imp_left fun ⟨m, hm, hrun⟩ => ⟨m, TypeTable.slot_of_findVirtual? hm, hfound hopen hm, hrun⟩
  · have hcases := run.call_cases w'' o name args
    rw [hcls] at hcases
    exact hcases.imp_left fun ⟨m, hm, hrun⟩ => ⟨m, hnamed hm, hrun⟩

/-! ## A class with a hook that has no body -/

/-- The hook that is called when an object goes, without a body. -/
def fadingHook : Method := ⟨"finalize", [], .void, .public ||| .abstract, "Badge", ⟨2⟩, .abstract⟩

/-- A class that leaves the hook and another operation without a body. -/
def fading : HostType :=
  { gauge [fadingHook, badgeWear] with
    name := "Badge", constructors := [⟨[], .public, "Badge", .inherited none⟩] }

/-- The world with the class and the interface with a property. -/
def fadingWorld : World :=
  { World.initial {} with types := named :: fading :: TypeTable.initial }

theorem sane_fadingWorld : fadingWorld.Sane := by
  refine World.sane_of_types _ ⟨rfl, nofun, nofun, ?_⟩ ⟨[named, fading], rfl⟩
  exact numbered_gauge [fadingHook, badgeWear]

theorem exists_createExtensionType_fading :
    ∃ proxy w', fadingWorld.createExtensionType .first fading.id [] [named.id] .system = (.ok proxy, w') := by
  obtain ⟨pairs, hpairs⟩ : ∃ pairs, fadingWorld.types.harvestProperties [named.id] = .ok pairs :=
    exists_eq_ok_of_isOk (by decide +kernel)
  refine World.exists_createExtensionType_of_fits .system sane_fadingWorld nofun (by decide) rfl
    (TypeTable.modest_of_forall (by decide) (by decide)).fits (fun i hi t ht => ?_) hpairs
    (.inr ⟨by decide, by decide⟩)
  obtain rfl := List.mem_singleton.1 hi
  cases ht
  rfl

/-- Nothing in this world is final or private. -/
theorem not_withholds_fading {extra : List TypeId} {s : Slot} (hs : ¬(s.name = teardownName ∧ s.params = [])) :
    ¬fadingWorld.types.Withholds fading.id extra s := by
  have hall : ∀ u ∈ fadingWorld.types, ∀ m ∈ u.methods,
      m.modifiers.isFinal = false ∧ m.modifiers.isPrivate = false := by decide
  rintro (hook | ⟨m, ⟨u, hu, hm⟩, -, hclosed⟩)
  · exact hs hook
  obtain ⟨hfinal, hprivate⟩ := hall u hu.mem m hm
  simp [hfinal, hprivate] at hclosed

/-- Calls of the other operation of the class reach a body. -/
theorem World.hasBody_of_reached_fading : ∃ proxy w',
    fadingWorld.createExtensionType .first fading.id [] [named.id] .system = (.ok proxy, w') ∧
    ∃ n, w'.types.findVirtual? proxy badgeWear.slot = some n ∧ n.hasBody = true := by
  obtain ⟨proxy, w', h⟩ := exists_createExtensionType_fading
  obtain ⟨_, _, _, _, -, -, -, hcover, -⟩ := hasBody_of_reached sane_fadingWorld (by decide) (by decide) rfl
    (by decide) (by decide) h
  have hdeclares : fadingWorld.types.Declares fading.id ([] ++ [named.id] ++ [.capability]) badgeWear :=
    ⟨fading, .inl (TypeTable.mem_lineage rfl), by simp [fading, gauge]⟩
  obtain ⟨n, -, -, hbody, hfound, -⟩ := hcover badgeWear hdeclares rfl (not_withholds_fading (by decide))
  exact ⟨proxy, w', h, n, hfound, hbody⟩

/-- Calls of the hook reach the declaration of the class, which has no body, and calls of the property of the interface
reach an accessor, which is final as no thunk and no stub is. -/
theorem World.hasBody_of_reached_differs : ∃ proxy w',
    fadingWorld.createExtensionType .first fading.id [] [named.id] .system = (.ok proxy, w') ∧
    w'.types.findVirtual? proxy fadingHook.slot = some fadingHook ∧ fadingHook.hasBody = false ∧
    (∀ steps depth i, ((exec steps (depth + 1)).invoke ⟨i, proxy⟩ fadingHook.slot [] w').1 =
      .error (.raised (.abstractMethod fadingHook.text))) ∧
    ∀ m ∈ named.methods, ∃ n, w'.types.findVirtual? proxy m.slot = some n ∧ n.modifiers.isFinal = true := by
  obtain ⟨proxy, w', h⟩ := exists_createExtensionType_fading
  have hdeclared : ∀ i ∈ fading.id :: ([] ++ [named.id]), i.index < fadingWorld.types.length := by decide
  obtain ⟨hlater, -⟩ := later_createExtensionType (w := fadingWorld) .first .system fun _ => hdeclared
  rw [h] at hlater
  obtain ⟨e, older, w₀, _, _, pairs, b, t, rfl, ha⟩ :=
    answered_of_createExtensionType sane_fadingWorld (by decide) hdeclared rfl h
  obtain ⟨pairs', hpairs, hshapes⟩ := ha.harvestProperties hlater.types (by decide)
  have hslots (s : Slot) : s ∈ (pairs.flatMap fun pair => [pair.getter.slot, pair.setter.slot]) ↔
      s ∈ (fadingWorld.types.propertyMethods [named.id]).map (·.slot) := by
    rw [← PropertyPair.slots_eq hshapes, (TypeTable.pairs_of_harvestProperties hpairs).mem_slots]
  have hunclaimed : fadingHook.slot ∉ pairs.flatMap fun pair => [pair.getter.slot, pair.setter.slot] := by
    rw [hslots]
    decide
  have hclaimed : ∀ m ∈ named.methods, m.slot ∈ pairs.flatMap fun pair => [pair.getter.slot, pair.setter.slot] := by
    simp only [hslots]
    decide
  have hfound : w'.types.findVirtual? t.id fadingHook.slot = some fadingHook := by
    rw [ha.findVirtual?_eq, (ha.above_eq hlater.types sane_fadingWorld.start hdeclared).2.2]
    · exact TypeTable.reached?_of_chain rfl
    -- the layers have nothing of that slot but accessors, which have other names
    rintro ⟨n, hn, hslot⟩
    obtain ⟨hname, -, hparams⟩ := Slot.mk.inj hslot
    have hclosed : n.isOffered = false :=
      Bool.eq_false_iff.2 fun hoffered => (Method.isOffered_iff.1 hoffered).2.2.2 ⟨hname, hparams⟩
    rcases ha.slot_of_closed hn hclosed with hproperty | ⟨op, -, haccessor⟩
    · exact hunclaimed (hslot ▸ hproperty)
    · have hmark := op.slot.prefix_accessor
      rw [← haccessor, hslot] at hmark
      exact absurd hmark (by decide)
  refine ⟨t.id, w', h, hfound, rfl, fun steps depth i => ?_, fun m hm => ?_⟩
  · rw [Runner.invoke, Action.bind_apply_ok (Action.get_apply w'), hfound]
    rfl
  · obtain ⟨n, hn, hslot, hreached⟩ := ha.exists_findVirtual? (.inl (hclaimed m hm))
    exact ⟨n, hreached, ha.isFinal_of_property hlater.types sane_fadingWorld.start hdeclared (by decide)
      (hslot ▸ hclaimed m hm) hn⟩

end Interpose
