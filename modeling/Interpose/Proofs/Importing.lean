import Interpose.Proofs.Nesting
import Interpose.Proofs.Returning

/-!
# What script types import

A script type imports what calls can reach in the hierarchy that it extends, and its bridge takes over what is
public or protected there, in stubs and above them. They walk over different lists, but whatever calls can reach of
what is taken over has a slot that is imported. So the call of such an operation is always answered by a function,
and it fails for want of one only if that function stands for an operation without a body.
-/

namespace Interpose

/-! ## The slots that are imported -/

namespace TypeTable

variable {types : TypeTable} {found methods : List Method} {ids extra : List TypeId} {id : TypeId} {t : HostType}
  {m : Method} {s : Slot}

/-- Importing adds the slots of what calls can reach. -/
theorem exists_importNew_iff : (∃ m ∈ importNew found methods, m.slot = s) ↔
    (∃ m ∈ found, m.slot = s) ∨ ∃ m ∈ methods, m.isVirtual = true ∧ m.slot = s := by
  have hfind (l : List Method) : (∃ m ∈ l, m.slot = s) ↔ (l.find? (·.occupies s)).isSome = true := by
    simp only [List.find?_isSome, Method.occupies, beq_iff_eq]
  rw [hfind, find?_importNew (P := (·.occupies s)) fun a b h => by rw [Method.occupies, Method.occupies, h],
    List.find?_append, Option.isSome_or, Bool.or_eq_true, ← hfind, ← hfind]
  simp only [List.mem_filter, and_assoc]

/-- Importing from several interfaces adds the slots of what calls can reach of any of them. -/
theorem exists_imported_iff :
    (∃ m ∈ ids.foldl (fun found i => importNew found (types.interfaceMethods i)) found, m.slot = s) ↔
      (∃ m ∈ found, m.slot = s) ∨ ∃ i ∈ ids, ∃ m ∈ types.interfaceMethods i, m.isVirtual = true ∧ m.slot = s := by
  induction ids generalizing found with
  | nil => simp only [List.foldl_nil, List.not_mem_nil, false_and, exists_false, or_false]
  | cons i ids ih =>
      rw [List.foldl_cons, ih, exists_importNew_iff, or_assoc]
      simp only [List.mem_cons, or_and_right, exists_or, exists_eq_left]

/-- What is reached from some types is reached from one of them. -/
theorem reaches_iff_exists : types.Reaches ids t ↔ ∃ i ∈ ids, types.Reaches [i] t := by
  constructor
  · intro h
    induction h with
    | named hi ht => exact ⟨_, hi, .named List.mem_cons_self ht⟩
    | extended _ hi ht ih =>
        obtain ⟨j, hj, hs⟩ := ih
        exact ⟨j, hj, .extended hs hi ht⟩
  · rintro ⟨i, hi, h⟩
    exact h.mono fun j hj => List.mem_singleton.1 hj ▸ hi

/-- A walk down the table from a type finds what is reached from it. -/
theorem Numbered.mem_collect_nil (h : types.Numbered) (hid : id.index < types.length) :
    t ∈ types.collect id [] ↔ types.Reaches [id] t := by
  have hgrown : Numbered ([] ++ types) := h
  have hwalk : types.extendFound [id] [] = types.extendFound [] (types.collect id []) :=
    hgrown.extendFound_collect hid [] []
  rw [← mem_extendFound_nil, hwalk, extendFound]

/-- Calls on a type look through what its class chain and the interfaces of that declare. -/
theorem Numbered.mem_methodsOf (h : types.Numbered) : m ∈ types.methodsOf id ↔ types.Declares id [] m := by
  rw [← h.mem_sources, List.flatMap_append, interfaceList, extendFound, methodsOf]

/-- Further interfaces declare what is reached from them. -/
theorem declares_append_iff : types.Declares id (ids ++ extra) m ↔
    types.Declares id ids m ∨ ∃ t, types.Reaches extra t ∧ m ∈ t.methods := by
  simp only [Declares, InScope, ← List.append_assoc, reaches_append, or_and_right, exists_or, or_assoc]

/-- The capability declares one operation and extends nothing, however the table of the types that are always there
grows. -/
theorem Numbered.exists_capability (h : types.Numbered) (hstart : initial <:+ types) :
    ∃ c m, types.lookup? .capability = some c ∧ c.name = capabilityName ∧ c.methods = [m] ∧
      m.slot = capabilitySlot ∧ m.declaring = capabilityName ∧ m.modifiers = (.public ||| .abstract) ∧
      ∀ t, types.Reaches [.capability] t → t = c := by
  obtain ⟨new, rfl⟩ := hstart
  obtain ⟨c, m, hc, hnone, hfacts⟩ : ∃ c m, lookup? initial .capability = some c ∧ c.interfaces = [] ∧
      c.name = capabilityName ∧ c.methods = [m] ∧ m.slot = capabilitySlot ∧ m.declaring = capabilityName ∧
      m.modifiers = (.public ||| .abstract) := ⟨_, _, rfl, rfl, rfl, rfl, rfl, rfl, rfl⟩
  have hlookup : lookup? (new ++ initial) .capability = some c := (h.lookup?_append (by decide)).trans hc
  obtain ⟨hname, hmethods, hslot, hdeclaring, hmodifiers⟩ := hfacts
  refine ⟨c, m, hlookup, hname, hmethods, hslot, hdeclaring, hmodifiers, fun t ht => ?_⟩
  rw [reaches_singleton hlookup, hnone] at ht
  exact ht.resolve_right not_reaches_nil

/-- A script type imports the slot of all that calls can reach of what it extends. -/
theorem Numbered.exists_imported {base : TypeId} {interfaces properties : List TypeId} (h : types.Numbered)
    (hasked : ∀ i ∈ interfaces ++ properties, i.index < types.length)
    (hm : types.Declares base (interfaces ++ properties) m) (hvirtual : m.isVirtual = true) (label : String)
    (defined : List ScriptFunction) :
    ∃ source, .imported source ∈ (types.extendScript label base interfaces properties defined).functions ∧
      source.slot = m.slot := by
  have hslot : ∃ source ∈ (interfaces ++ properties).foldl (fun found i => importNew found (types.interfaceMethods i))
      (importNew [] (types.methodsOf base)), source.slot = m.slot := by
    rw [exists_imported_iff, exists_importNew_iff]
    rw [← List.nil_append (interfaces ++ properties), declares_append_iff] at hm
    rcases hm with hm | ⟨t, ht, hm⟩
    · exact .inl (.inr ⟨m, h.mem_methodsOf.2 hm, hvirtual, rfl⟩)
    · obtain ⟨i, hi, ht⟩ := reaches_iff_exists.1 ht
      exact .inr ⟨i, hi, m, List.mem_flatMap.2 ⟨t, (h.mem_collect_nil (hasked i hi)).2 ht, hm⟩, hvirtual, rfl⟩
  obtain ⟨source, hsource, hslot⟩ := hslot
  exact ⟨source, List.mem_append_right _ (List.mem_map_of_mem hsource), hslot⟩

end TypeTable

namespace ScriptType

/-- Whether a script type was made when some of the types were there, among them all that it extends. -/
def MadeOn (types : TypeTable) (s : ScriptType) : Prop :=
  ∃ older defined, older <:+ types ∧
    (∀ i ∈ s.base :: (s.interfaces ++ s.propertyInterfaces), i.index < older.length) ∧
    s = TypeTable.extendScript older s.name s.base s.interfaces s.propertyInterfaces defined

variable {s : ScriptType} {types : TypeTable} {source : Method} {args : List Value}

theorem MadeOn.declared (h : s.MadeOn types) : s.Declared types := by
  obtain ⟨older, defined, hgrown, hasked, -⟩ := h
  exact fun i hi => Nat.lt_of_lt_of_le (hasked i hi) hgrown.length_le

/-- A call of a name with as many arguments as an imported operation of it has parameters is answered. -/
theorem exists_resolve? (types : TypeTable) (hsource : .imported source ∈ s.functions)
    (hlength : args.length = source.params.length) :
    ∃ f ∈ s.functions, s.resolve? types source.name args = some f := by
  have hcandidate : .imported source ∈ (s.named source.name).filter (·.accepts args.length) := by
    refine List.mem_filter.2 ⟨List.mem_filter.2 ⟨hsource, beq_self_eq_true source.name⟩, ?_⟩
    rw [ScriptFunction.accepts, ScriptFunction.arity, hlength]
    exact beq_self_eq_true _
  have hfunction {f : ScriptFunction} (hf : f ∈ (s.named source.name).filter (·.accepts args.length)) :
      f ∈ s.functions :=
    List.mem_of_mem_filter (List.mem_of_mem_filter hf)
  rw [resolve?]
  dsimp only
  generalize (s.named source.name).filter (·.accepts args.length) = candidates at hcandidate hfunction
  cases hscripted : candidates.find? (·.isScript) with
  | some f => exact ⟨f, hfunction (List.mem_of_find?_eq_some hscripted), rfl⟩
  | none =>
      have himported : .imported source ∈ candidates.filter fun f => !f.isScript :=
        List.mem_filter.2 ⟨hcandidate, rfl⟩
      cases hbest : (candidates.filter fun f => !f.isScript).find? fun f =>
          f.source?.any fun m => types.acceptsArgs m.params args with
      | some f => exact ⟨f, hfunction (List.mem_of_mem_filter (List.mem_of_find?_eq_some hbest)), rfl⟩
      | none =>
          obtain ⟨f, hf⟩ := Option.isSome_iff_exists.1 (List.isSome_head?.2 (List.ne_nil_of_mem himported))
          exact ⟨f, hfunction (List.mem_of_mem_filter (List.mem_of_head? hf)), by rw [hf]; rfl⟩

end ScriptType

/-! ## The slots that are taken over -/

namespace World.Answered

variable {e : Emitter} {w w' w₀ : World} {older : TypeTable} {base b t : HostType} {m : Method}
  {interfaces properties interfaces' properties' : List TypeId} {pairs : List PropertyPair}

/-- What the base and the interfaces with properties declared when the layers were built is declared by what was
asked for. -/
theorem declares_of_older
    (h : w'.Answered e older w₀ base interfaces properties interfaces' properties' pairs b t)
    (hgrown : w.types <:+ w'.types)
    (hdeclared : ∀ i ∈ base.id :: (interfaces ++ properties), i.index < w.types.length)
    (hm : older.Declares base.id properties' m) : w.types.Declares base.id (interfaces ++ properties) m := by
  obtain ⟨new, hnew, hnumbered, hlt⟩ := h.stands.grown_base
  obtain ⟨grown, hgrown⟩ := hgrown
  have hnumbered' : TypeTable.Numbered (grown ++ w.types) := hgrown ▸ h.stands.numbered
  have hasked (i : TypeId) (hi : i ∈ properties') : i ∈ interfaces ++ properties :=
    List.mem_append_right _ ((h.properties i).1 hi)
  rw [← hnumbered.declares_append hlt fun i hi => h.declared i (List.mem_append_right _ hi), ← hnew, ← hgrown,
    hnumbered'.declares_append (hdeclared _ List.mem_cons_self)
      fun i hi => hdeclared i (List.mem_cons_of_mem _ (hasked i hi))] at hm
  exact hm.mono hasked

/-- What a subtype takes over is the capability's operation, or stands for one that was declared by what was asked
for and that calls can reach if they can reach what is taken over. -/
theorem exists_declared (h : w'.Answered e older w₀ base interfaces properties interfaces' properties' pairs b t)
    (hgrown : w.types <:+ w'.types) (hnumbered : w.types.Numbered) (hstart : TypeTable.initial <:+ w.types)
    (hdeclared : ∀ i ∈ base.id :: (interfaces ++ properties), i.index < w.types.length)
    (hm : m ∈ w₀.types.harvest b.id (dedupIds interfaces' ++ [.capability])) :
    (m.slot = capabilitySlot ∧ m.declaring = capabilityName) ∨
      ∃ n, w.types.Declares base.id (interfaces ++ properties) n ∧ n.slot = m.slot ∧ n.isVirtual = m.isVirtual := by
  rcases h.declares_of_mem hgrown hstart hdeclared hm with hown | hdeclares
  · rcases h.built.method_cases hown with ⟨hfinal, -⟩ | ⟨a, ha, hslot, hmodifiers, -⟩
    · rw [(Method.isOffered_iff.1 (Emitter.Bridge.offered_of_mem_harvest hm).1).1] at hfinal
      cases hfinal
    · -- a stub stands for what the base or an interface with properties declares
      obtain ⟨new, -, holder, -⟩ := h.stands.grown_base
      have hsource := holder.of_append.mem_sources.1
        (List.mem_of_find?_eq_some (mem_intercept.1 (List.mem_filter.1 ha).1).2)
      exact .inr ⟨a, h.declares_of_older hgrown hdeclared hsource, hslot.symm,
        (Layer.isVirtual_of_modifiers hmodifiers).symm⟩
  · rcases TypeTable.declares_append_iff.1 hdeclares with hdeclares | ⟨u, hu, hmem⟩
    · exact .inr ⟨m, hdeclares, rfl, rfl⟩
    · obtain ⟨c, k, -, -, hmethods, hslot, hdeclaring, -, honly⟩ := hnumbered.exists_capability hstart
      rw [honly u hu, hmethods, List.mem_singleton] at hmem
      exact .inl (hmem ▸ ⟨hslot, hdeclaring⟩)

end World.Answered

/-! ## Calls that are routed -/

namespace Runner

variable {w : World} {p : PlatformId} {id : InstanceId} {i : Instance} {op : Method} {args : List Value}
  {f : ScriptFunction}

/-- What a function does with a routed call of an operation: what the script defines runs and its result becomes one
of the operation, and what stands for an operation of the host runs as what is overridden, or as an overload. -/
def answered (run : Runner) (p : PlatformId) (id : InstanceId) (bridge : ObjectRef) (op : Method)
    (args : List Value) : ScriptFunction → Action Value
  | .scripted name arity body => do
    let result ← run (.function (.scripted name arity body) id (args.map (·.unboxed)))
    if op.returns.isVoid then return .void
    else Action.withTypes fun types => types.toHost op.returns result
  | .imported source =>
    if source.slot = op.slot then run.overridden p bridge op args else run.callOverload p bridge source args

/-- A routed call fails if the function that it resolves to has no body, and else is answered by it. -/
theorem route_apply (run : Runner) (hi : w.instances[id.index]? = some i) (hcapability : op.declaring ≠ capabilityName)
    (hresolve : i.script.resolve? w.types op.name (args.map (·.unboxed)) = some f) :
    run.route p id op args w = World.holding (args.flatMap (·.holders))
      (if f.isAbstractOnHost then Action.raise (.unimplementedAbstract op.text i.script.name)
        else run.answered p id i.bridge op args f) w := by
  rw [route, Action.bind_apply_ok (Action.get_apply w)]
  simp only [hi, hresolve, beq_eq_false_iff_ne.2 hcapability, Bool.false_eq_true, if_false]
  cases f <;> rfl

/-- The capability's operation is answered before anything is resolved. -/
theorem route_apply_of_capability (run : Runner) (hi : w.instances[id.index]? = some i)
    (hcapability : op.declaring = capabilityName) :
    run.route p id op args w = (.ok (.foreign (.interpreter id)), w) := by
  rw [route, Action.bind_apply_ok (Action.get_apply w)]
  simp only [hi, hcapability, beq_self_eq_true, if_true]
  rfl

variable {w' : World} {script : ScriptType} {params : List ValueType} {steps depth : Nat}

/-- A script object is made by asking for a subtype and constructing its bridge. -/
theorem created_of_extend (h : (exec steps depth).extend p script params args w = (.ok (.ok id), w')) :
    ∃ proxy w₁, w.createExtensionType p script.base script.interfaces script.propertyInterfaces .system =
        (.ok proxy, w₁) ∧
      (exec steps depth).createInstance p proxy script params args w₁ = (.ok (.ok id), w') := by
  obtain ⟨proxy, w₁, hcreated, hmade⟩ := PlatformAction.bind_eq_ok h
  rw [PlatformAction.ofWorld] at hcreated
  rcases hrequest : w.createExtensionType p script.base script.interfaces script.propertyInterfaces
    .system with ⟨r, w₂⟩
  rw [hrequest] at hcreated
  cases hcreated
  exact ⟨proxy, w₁, rfl, hmade⟩

/-- A script object that is made has a bridge of a subtype that was built for what its script type extends. -/
theorem answered_of_extend (hs : w.Sane) (hp : p.index < w.platforms.size) (hdeclared : script.Declared w.types)
    (h : (exec steps depth).extend p script params args w = (.ok (.ok id), w')) :
    w.Later w' ∧ ∃ o e older w₀ base interfaces properties pairs b t, base.id = script.base ∧
      w'.Made p t.id script id o ∧ w'.Answered e older w₀ base script.interfaces script.propertyInterfaces
        interfaces properties pairs b t := by
  obtain ⟨proxy, w₁, hrequest, hmade⟩ := created_of_extend h
  obtain ⟨hlater, -⟩ := World.later_createExtensionType (w := w) p .system fun _ => hdeclared
  obtain ⟨base, hbase⟩ := hs.numbered.exists_lookup? (hdeclared script.base List.mem_cons_self)
  have hid : base.id = script.base := (TypeTable.mem_of_lookup? hbase).2
  rw [hrequest] at hlater
  obtain ⟨e, older, w₀, interfaces, properties, pairs, b, t, rfl, hanswered⟩ :=
    World.answered_of_createExtensionType hs hp (hid ▸ hdeclared) (hid ▸ hbase) (hid ▸ hrequest)
  have hafter : w₁.Later w' := later_createInstance hmade
  obtain ⟨o, ho⟩ := made_of_createInstance hmade
  exact ⟨hlater.trans hafter, o, e, older, w₀, base, interfaces, properties, pairs, b, t, hid, ho,
    { hanswered with stands := hanswered.stands.later hafter.types (hafter.sane (hlater.sane hs)).numbered }⟩

end Runner

namespace World

variable {w w₁ : World} {p : PlatformId} {script : ScriptType} {params : List ValueType} {given : List Value}
  {id : InstanceId} {steps₀ depth₀ : Nat}

end World

/-! ## A script type that leaves an operation without a body -/

/-- An operation without a body. -/
def latchOpen : Method :=
  { valveOpen with modifiers := .public ||| .abstract, body := .abstract }

/-- An operation that is both public and private. -/
def latchShut : Method :=
  { valveShut with modifiers := .public ||| .private }

/-- A class with both and a constructor. -/
def latch : HostType :=
  { gauge [latchOpen, latchShut] with constructors := [⟨[], .public, "Gauge", .inherited none⟩] }

/-- A script type that extends it and defines nothing. -/
def latchScript : ScriptType :=
  TypeTable.extendScript (latch :: TypeTable.initial) "Script" latch.id [] [] []

/-- The world with the class, whose platform does not verify what it generates. -/
def latchWorld : World :=
  { World.initial { verifyCode := false } with types := latch :: TypeTable.initial }

theorem sane_latchWorld : latchWorld.Sane :=
  World.sane_of_types _ (numbered_gauge [latchOpen, latchShut]) ⟨[latch], rfl⟩

/-- Whether the script object is made, with its bridge. -/
def World.HasLatch (w : World) : Prop :=
  (w.extendBy latchScript).1 = .ok (.ok ⟨0⟩) ∧
  (w.extendBy latchScript).2.Bridges [(capabilitySlot, false, true), (latchOpen.slot, false, false),
    (latchShut.slot, true, false)]

instance : DecidablePred World.HasLatch := fun _ => inferInstanceAs (Decidable (_ ∧ _))

/-- The script object is made in the world with the class. -/
theorem exists_hasLatch : ∃ w : World, w.HasLatch ∧
    (exec 30 6).extend .first latchScript [] [] latchWorld = (.ok (.ok ⟨0⟩), (w.extendBy latchScript).2) := by
  have hgenerate : ∃ w : World, World.generate ⟨.weave, false⟩ latch.id [] [] .system (some ⟨0⟩) latchWorld =
      (.ok ⟨4⟩, w) ∧ w.HasLatch := by
    apply World.exists_generate (P := World.HasLatch)
    · rfl
    · rfl
    · rw [TypeTable.harvestAbstract, TypeTable.harvest, TypeTable.interfaceList, TypeTable.extendFound]
      rfl
    · rfl
    · exact TypeTable.harvest_singleton rfl rfl rfl
    · apply exists_eq_ok_of_decide (P := fun w : World => World.HasLatch { w with installed := _ })
      decide +kernel
    · rfl
  obtain ⟨w, hw, h⟩ := hgenerate
  refine ⟨w, h, ?_⟩
  rw [← h.1]
  exact Runner.extend_apply_of_generate rfl rfl rfl hw

end Interpose
