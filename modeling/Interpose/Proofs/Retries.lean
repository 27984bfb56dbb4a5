import Interpose.Machine.Exec
import Interpose.Proofs.Overrides
import Interpose.Proofs.Registries

/-!
# Requests that are refused

A request for an object is refused for what it says before anything is generated, or for the dispatcher that the
subtype has already, and then nothing has changed. It is refused for its constructor only when the subtype is there
and has the dispatcher of the request, which both stay: the same request with another constructor goes on as if
nothing had been refused, and with another dispatcher it is refused.
-/

namespace Interpose

variable {w w' w₁ w₂ : World} {p : PlatformId} {r : ExtensionRequest} {run : Runner} {d : DispatcherId}
  {proxy : TypeId}

/-! ## Setting dispatchers -/

/-- A world in which a type has a dispatcher: the one that it had, or else the given one. -/
def World.dispatching (w : World) (id : TypeId) (d : DispatcherId) : World :=
  match w.dispatcherOf? id with
  | some _ => w
  | none => { w with installed := (id, d) :: w.installed }

namespace World

theorem dispatching_of_some (h : w.dispatcherOf? proxy = some d) (d' : DispatcherId) :
    w.dispatching proxy d' = w := by
  rw [dispatching, h]

theorem dispatching_of_none (h : w.dispatcherOf? proxy = none) (d : DispatcherId) :
    w.dispatching proxy d = { w with installed := (proxy, d) :: w.installed } := by
  rw [dispatching, h]

/-- The dispatcher is there then. -/
theorem dispatcherOf?_dispatching (w : World) (id : TypeId) (d : DispatcherId) :
    (w.dispatching id d).dispatcherOf? id = some ((w.dispatcherOf? id).getD d) := by
  cases hset : w.dispatcherOf? id with
  | some current =>
      rw [dispatching_of_some hset, hset]
      rfl
  | none =>
      rw [dispatching_of_none hset, dispatcherOf?, List.find?_cons, beq_self_eq_true]
      rfl

theorem types_dispatching (w : World) (id : TypeId) (d : DispatcherId) : (w.dispatching id d).types = w.types := by
  rw [dispatching]
  split <;> rfl

theorem platforms_dispatching (w : World) (id : TypeId) (d : DispatcherId) :
    (w.dispatching id d).platforms = w.platforms := by
  rw [dispatching]
  split <;> rfl

end World

/-- A world in which a platform remembers other subtypes for requests with dispatchers of their own. -/
def World.keeping (w : World) (p : PlatformId) (reg : Registry) : World :=
  { w with platforms := w.platforms.modify p.index fun s => { s with unmanaged := reg } }

/-- What the host computes is not refused for what is asked. -/
theorem PlatformAction.ofHost_ne_config {α : Type} {x : Action α} {e : ConfigError} :
    ofHost x w ≠ (.ok (.error (.config e)), w') := by
  intro h
  have hofHost := (congrFun (run_lift_bind (Action.outcome x) _) w).symm.trans h
  rw [Action.bind_apply] at hofHost
  rcases hx : Action.outcome x w with ⟨_ | _ | _, w₂⟩
  all_goals
    rw [hx] at hofHost
    cases hofHost

namespace ExtensionRequest

/-! ## Subtypes for requests -/

/-- The key of what a request asks for. -/
def key (r : ExtensionRequest) : CacheKey := CacheKey.of r.base r.interfaces r.properties r.loader

/-- What a request has generated. -/
def generate (r : ExtensionRequest) (p : PlatformId) (w : World) : Except PlatformError TypeId × World :=
  World.generate (w.emitter p) r.base r.interfaces r.properties r.loader none w

/-- Without a class among its interfaces, a request is answered by what is remembered for its key, or else by what is
generated. -/
theorem buildType_eq (h : w.classAmong? (r.interfaces ++ r.properties) = none) :
    r.buildType p w =
      match (w.platform p).unmanaged.getOrCreate w.types.satisfies r.key (r.generate p) w with
      | (result, reg, w₁) => (result, w₁.keeping p reg) := by
  simp only [buildType, h, World.fromRegistry, Registry.getOrCreate_eq]
  rfl

/-- What is remembered for the key of a request is its subtype, if it provides what the key asks for. -/
theorem buildType_of_remembered (h : w.classAmong? (r.interfaces ++ r.properties) = none)
    (hget : (w.platform p).unmanaged.get? r.key = some proxy) (hsatisfies : w.types.satisfies proxy r.key = true) :
    r.buildType p w = (.ok proxy, w) := by
  rw [buildType_eq h, Registry.getOrCreate_eq]
  simp only [hget, hsatisfies, if_true]
  exact congrArg (Prod.mk _) (w.modify_self p rfl)

/-- The subtype of a request is refused for a class among its interfaces, or is one that is remembered, and then the
world stays as it is. Otherwise it is generated, and remembered if that succeeds. -/
theorem buildType_cases {result : Except PlatformError TypeId} (h : r.buildType p w = (result, w')) :
    (∃ t, w.classAmong? (r.interfaces ++ r.properties) = some t ∧
      result = .error (.config (.notAnInterface t.name)) ∧ w' = w) ∨
    w.classAmong? (r.interfaces ++ r.properties) = none ∧
      ((∃ id, result = .ok id ∧ (w.platform p).unmanaged.get? r.key = some id ∧
          w.types.satisfies id r.key = true ∧ w' = w) ∨
        (∃ id w₁, r.generate p w = (.ok id, w₁) ∧ result = .ok id ∧
          w' = w₁.keeping p ((w.platform p).unmanaged.generated r.key id)) ∨
        ∃ e w₁, r.generate p w = (.error e, w₁) ∧ result = .error e) := by
  cases hclass : w.classAmong? (r.interfaces ++ r.properties) with
  | some t =>
      rw [buildType, hclass] at h
      cases h
      exact .inl ⟨t, rfl, rfl, rfl⟩
  | none =>
      by_cases hknown : ∃ id, (w.platform p).unmanaged.get? r.key = some id ∧ w.types.satisfies id r.key = true
      · obtain ⟨id, hget, hsatisfies⟩ := hknown
        rw [buildType_of_remembered hclass hget hsatisfies] at h
        cases h
        exact .inr ⟨rfl, .inl ⟨id, rfl, hget, hsatisfies, rfl⟩⟩
      · have hcreate : (w.platform p).unmanaged.getOrCreate w.types.satisfies r.key (r.generate p) w =
            (w.platform p).unmanaged.generate r.key (r.generate p) w :=
          Registry.getOrCreate_eq_generate fun id hget => Bool.eq_false_iff.2 fun hsatisfies =>
            hknown ⟨id, hget, hsatisfies⟩
        rw [buildType_eq hclass, hcreate, Registry.generate] at h
        rcases hmade : r.generate p w with ⟨e | id, w₁⟩
        · rw [hmade] at h
          cases h
          exact .inr ⟨rfl, .inr (.inr ⟨e, w₁, rfl, rfl⟩)⟩
        · rw [hmade] at h
          cases h
          exact .inr ⟨rfl, .inr (.inl ⟨id, w₁, rfl, rfl, rfl⟩)⟩

section

variable (hbase : ∃ t, w.types.lookup? r.base = some t)

include hbase

/-- Generating a subtype of a type that is there is not refused for what is asked. -/
theorem generate_ne_config {e : ConfigError} : r.generate p w ≠ (.error (.config e), w₁) := by
  obtain ⟨t, ht⟩ := hbase
  intro h
  rw [generate, World.generate, ht] at h
  dsimp only at h
  split at h
  · cases h
  · cases h

/-- The subtype of a request is refused for what is asked before anything is generated. -/
theorem eq_of_buildType_config {e : ConfigError} (h : r.buildType p w = (.error (.config e), w')) :
    (∃ name, e = .notAnInterface name) ∧ w' = w := by
  rcases buildType_cases h with ⟨t, -, hfault, hsame⟩ | ⟨-, ⟨id, hid, -⟩ | ⟨id, w₁, -, hid, -⟩ |
    ⟨fault, w₁, hmade, hfault⟩⟩
  · cases hfault
    exact ⟨⟨_, rfl⟩, hsame⟩
  · cases hid
  · cases hid
  · cases hfault
    exact absurd hmade (generate_ne_config hbase)

end

/-- A subtype that is generated for a request has no dispatcher. -/
theorem dispatcherOf?_of_generate (hset : w.SetsKnown) (h : r.generate p w = (.ok proxy, w₁)) :
    w₁.dispatcherOf? proxy = none := by
  obtain ⟨t, ht⟩ := World.exists_lookup?_of_generate h
  have hid : r.base = t.id := (TypeTable.mem_of_lookup? ht).2.symm
  obtain ⟨hindex, -⟩ := World.index_of_generate h
  rw [generate, hid] at h
  obtain ⟨b, arrays, w₀, s, -, -, hw₀, hw₁⟩ := World.generate_eq_ok (hid ▸ ht) h
  have hinstalled : w₁.installed = w.installed := by
    rw [hw₁, hw₀]
    rfl
  rw [World.dispatcherOf?, hinstalled, hindex]
  exact hset.dispatcherOf?_eq_none (Nat.le_succ _)

/-- A subtype that had a dispatcher before its request was remembered. -/
theorem eq_of_dispatcherOf? (hset : w.SetsKnown) (h : r.buildType p w = (.ok proxy, w₁))
    (hd : w₁.dispatcherOf? proxy = some d) : w₁ = w := by
  rcases buildType_cases h with ⟨t, -, hid, -⟩ | ⟨-, ⟨id, -, -, -, hsame⟩ | ⟨id, w₂, hmade, hid, rfl⟩ | ⟨e, w₂, -, hid⟩⟩
  · cases hid
  · exact hsame
  · cases hid
    cases (dispatcherOf?_of_generate hset hmade).symm.trans hd
  · cases hid

section

variable (hs : w.Sane) (hp : p.index < w.platforms.size)
  (hdeclared : ∀ i ∈ r.base :: (r.interfaces ++ r.properties), i.index < w.types.length)
  (h : r.buildType p w = (.ok proxy, w₁))

include hs hdeclared h

/-- The types that were there before a request are there afterwards. -/
theorem grown_of_buildType : ∃ new, w₁.types = new ++ w.types ∧ TypeTable.Numbered (new ++ w.types) := by
  rcases buildType_cases h with ⟨t, -, hid, -⟩ | ⟨-, ⟨id, -, -, -, rfl⟩ | ⟨id, w₂, hmade, hid, rfl⟩ | ⟨e, w₂, -, hid⟩⟩
  · cases hid
  · exact ⟨[], rfl, hs.numbered⟩
  · have hlater := World.later_generate (w := w) (w.emitter p) r.loader none fun _ => hdeclared
    rw [generate] at hmade
    rw [hmade] at hlater
    obtain ⟨new, hnew⟩ := hlater.types
    exact ⟨new, hnew.symm, hnew ▸ (hlater.sane hs).numbered⟩
  · cases hid

include hp

/-- A request that is made again is answered with the same subtype, and changes nothing. -/
theorem buildType_again (htypes : w₂.types = w₁.types) (hplatforms : w₂.platforms = w₁.platforms) :
    r.buildType p w₂ = (.ok proxy, w₂) := by
  obtain ⟨new, hnew, hnumbered⟩ := grown_of_buildType hs hdeclared h
  have hclassAmong (hclass : w.classAmong? (r.interfaces ++ r.properties) = none) :
      w₂.classAmong? (r.interfaces ++ r.properties) = none := by
    rw [World.classAmong?_eq_none_iff] at hclass ⊢
    intro i hi s hlookup
    rw [htypes, hnew, hnumbered.lookup?_append (hdeclared i (List.mem_cons_of_mem _ hi))] at hlookup
    exact hclass i hi s hlookup
  have hplatform : w₂.platform p = w₁.platform p := by rw [World.platform, World.platform, hplatforms]
  rcases buildType_cases h with ⟨t, -, hid, -⟩ | ⟨hclass, ⟨id, hid, hget, hsatisfies, rfl⟩ |
    ⟨id, w₃, hmade, hid, rfl⟩ | ⟨e, w₃, -, hid⟩⟩
  · cases hid
  · cases hid
    exact buildType_of_remembered (hclassAmong hclass) (hplatform ▸ hget) (htypes ▸ hsatisfies)
  · cases hid
    have hsize := World.size_generate (w.emitter p) r.base r.interfaces r.properties r.loader none w
    rw [generate] at hmade
    rw [hmade] at hsize
    refine buildType_of_remembered (hclassAmong hclass) ?_ ?_
    · rw [hplatform, World.keeping, World.platform_modify, if_pos ⟨rfl, hsize ▸ hp⟩]
      exact Registry.get?_put.trans (if_pos rfl)
    · have hsatisfies := World.satisfies_of_generate hmade
      rw [htypes]
      exact hsatisfies
  · cases hid

end

/-! ## Objects for requests -/

/-- The object of a request is constructed with the constructor of the subtype that it names. -/
def constructed (r : ExtensionRequest) (run : Runner) (name : String) (types : TypeTable) (proxy : TypeId) :
    PlatformAction ObjectRef :=
  match (types.lookup? proxy).bind (·.findConstructor? r.params) with
  | none => throw (.config (.noSuchConstructor name r.params))
  | some _ => PlatformAction.ofHost (run.construct proxy r.params r.args)

/-- A request without a dispatcher is refused before anything is generated. -/
theorem build_of_missing (hd : r.dispatcher = none) :
    r.build run p w = (.ok (.error (.config (.missingDispatcher (w.types.nameOf r.base)))), w) := by
  rw [build]
  refine (PlatformAction.bind_apply_ok (r := .ok w) rfl).trans ?_
  simp only [ExceptT.bindCont, hd]
  rfl

/-- So is one with another number of arguments than of parameters. -/
theorem build_of_mismatch (hd : r.dispatcher = some d) (hcount : r.params.length ≠ r.args.length) :
    r.build run p w = (.ok (.error (.config (.argumentCountMismatch r.params.length r.args.length))), w) := by
  rw [build]
  refine (PlatformAction.bind_apply_ok (r := .ok w) rfl).trans ?_
  simp only [ExceptT.bindCont, hd, ne_eq, hcount, not_false_eq_true, if_true]
  rfl

/-- Otherwise a request is refused as its subtype is. -/
theorem build_of_buildType {fault : PlatformError} (hd : r.dispatcher = some d)
    (hcount : r.params.length = r.args.length) (h : r.buildType p w = (.error fault, w₁)) :
    r.build run p w = (.ok (.error fault), w₁) := by
  have hofWorld : PlatformAction.ofWorld (r.buildType p) w = (.ok (.error fault), w₁) := by
    rw [PlatformAction.ofWorld, h]
  rw [build]
  refine (PlatformAction.bind_apply_ok (r := .ok w) rfl).trans ?_
  simp only [ExceptT.bindCont, hd, hcount, ne_eq, not_true_eq_false, if_false]
  exact PlatformAction.bind_apply_ok hofWorld

/-- Once its subtype is there, an object is constructed if the subtype has the dispatcher of the request or none, and
has the one of the request then. -/
theorem build_apply (hd : r.dispatcher = some d) (hcount : r.params.length = r.args.length)
    (hbuild : r.buildType p w = (.ok proxy, w₁)) :
    r.build run p w =
      if ∀ current, w₁.dispatcherOf? proxy = some current → current = d then
        r.constructed run (w.types.nameOf r.base) w₁.types proxy (w₁.dispatching proxy d)
      else (.ok (.error (.config (.dispatcherAlreadySet (w₁.types.nameOf proxy)))), w₁) := by
  have hofWorld : PlatformAction.ofWorld (r.buildType p) w = (.ok (.ok proxy), w₁) := by
    rw [PlatformAction.ofWorld, hbuild]
  rw [build]
  refine (PlatformAction.bind_apply_ok (r := .ok w) rfl).trans ?_
  simp only [ExceptT.bindCont, hd, hcount, ne_eq, not_true_eq_false, if_false]
  refine (PlatformAction.bind_apply_ok hofWorld).trans ?_
  simp only [ExceptT.bindCont]
  refine (PlatformAction.bind_apply_ok (r := .ok w₁) rfl).trans ?_
  simp only [ExceptT.bindCont]
  cases hset : w₁.dispatcherOf? proxy with
  | none =>
      rw [if_pos fun current hc => absurd hc (Option.some_ne_none current).symm, World.dispatching_of_none hset]
      exact PlatformAction.bind_apply_ok (r := .ok ()) rfl
  | some current =>
      by_cases hsame : current = d
      · rw [if_pos fun c hc => Option.some.inj hc ▸ hsame, World.dispatching_of_some hset]
        exact congrFun (if_neg fun hne => hne hsame) w₁
      · rw [if_neg fun hall => hsame (hall current rfl)]
        exact congrFun (if_pos hsame) w₁

/-- Only for want of a constructor is an object not constructed because of what is asked. -/
theorem eq_of_constructed_config {name : String} {types : TypeTable} {e : ConfigError}
    (h : r.constructed run name types proxy w = (.ok (.error (.config e)), w')) :
    e = .noSuchConstructor name r.params ∧ w' = w := by
  rw [constructed] at h
  cases hfound : (types.lookup? proxy).bind (·.findConstructor? r.params) with
  | none =>
      rw [hfound] at h
      cases h
      exact ⟨rfl, rfl⟩
  | some c =>
      rw [hfound] at h
      exact absurd h PlatformAction.ofHost_ne_config

/-- A request that is refused for what is asked leaves the world as it is, or its subtype is there with its dispatcher
and has no constructor as it names one. -/
theorem build_config_cases {e : ConfigError} (hset : w.SetsKnown) (hbase : ∃ t, w.types.lookup? r.base = some t)
    (h : r.build run p w = (.ok (.error (.config e)), w')) :
    (w' = w ∧ ∀ name params, e ≠ .noSuchConstructor name params) ∨
      ∃ d proxy w₁, r.dispatcher = some d ∧ r.params.length = r.args.length ∧ r.buildType p w = (.ok proxy, w₁) ∧
        (∀ current, w₁.dispatcherOf? proxy = some current → current = d) ∧
        e = .noSuchConstructor (w.types.nameOf r.base) r.params ∧ w' = w₁.dispatching proxy d := by
  cases hd : r.dispatcher with
  | none =>
      cases (build_of_missing hd).symm.trans h
      exact .inl ⟨rfl, fun _ _ he => by cases he⟩
  | some d =>
      by_cases hcount : r.params.length = r.args.length
      · rcases hbuild : r.buildType p w with ⟨fault | proxy, w₁⟩
        · cases (build_of_buildType hd hcount hbuild).symm.trans h
          obtain ⟨⟨t, rfl⟩, hsame⟩ := eq_of_buildType_config hbase hbuild
          exact .inl ⟨hsame, fun _ _ he => by cases he⟩
        · rw [build_apply hd hcount hbuild] at h
          split at h
          · rename_i hfits
            obtain ⟨he, hw'⟩ := eq_of_constructed_config h
            exact .inr ⟨d, proxy, w₁, rfl, hcount, rfl, hfits, he, hw'⟩
          · rename_i hother
            cases h
            obtain ⟨current, hcurrent⟩ : ∃ current, w'.dispatcherOf? proxy = some current := by
              rw [← Option.isSome_iff_exists, Option.isSome_iff_ne_none]
              intro hnone
              exact hother fun c hc => by cases hnone.symm.trans hc
            exact .inl ⟨eq_of_dispatcherOf? hset hbuild hcurrent, fun _ _ he => by cases he⟩
      · cases (build_of_mismatch hd hcount).symm.trans h
        exact .inl ⟨rfl, fun _ _ he => by cases he⟩

/-- A request for the same subtype as another one, for an object of another constructor and with another dispatcher. -/
def corrected (r : ExtensionRequest) (d : DispatcherId) (params : List ValueType) (args : List Value) :
    ExtensionRequest :=
  { r with dispatcher := some d, params := params, args := args }

/-- **Refusals.** A request that is refused for what is asked changes nothing, unless it is for want of a constructor:
then what has changed is that its subtype is there, and has its dispatcher. The request for another constructor goes
on from there as if nothing had been refused, as long as it is for the same dispatcher. For any other dispatcher it is
refused in turn. -/
theorem build_refused {e : ConfigError} (hs : w.Sane) (hset : w.SetsKnown) (hp : p.index < w.platforms.size)
    (hdeclared : ∀ i ∈ r.base :: (r.interfaces ++ r.properties), i.index < w.types.length)
    (h : r.build run p w = (.ok (.error (.config e)), w')) :
    (w' = w ∧ ∀ name params, e ≠ .noSuchConstructor name params) ∨
      ∃ d proxy w₁, e = .noSuchConstructor (w.types.nameOf r.base) r.params ∧ r.dispatcher = some d ∧
        r.buildType p w = (.ok proxy, w₁) ∧ w' = w₁.dispatching proxy d ∧ w'.dispatcherOf? proxy = some d ∧
        (w₁.dispatcherOf? proxy = some d → w' = w) ∧
        ∀ (later : Runner) (params : List ValueType) (args : List Value), params.length = args.length →
          (r.corrected d params args).build later p w' = (r.corrected d params args).build later p w ∧
          ∀ d', d' ≠ d → (r.corrected d' params args).build later p w' =
            (.ok (.error (.config (.dispatcherAlreadySet (w'.types.nameOf proxy)))), w') := by
  have hbase := hs.numbered.exists_lookup? (hdeclared r.base List.mem_cons_self)
  refine (build_config_cases hset hbase h).imp_right ?_
  rintro ⟨d, proxy, w₁, hd, -, hbuild, hfits, he, rfl⟩
  have hinstalled : (w₁.dispatching proxy d).dispatcherOf? proxy = some d := by
    rw [World.dispatcherOf?_dispatching]
    cases hcurrent : w₁.dispatcherOf? proxy with
    | none => rfl
    | some current => exact congrArg some (hfits current hcurrent)
  refine ⟨d, proxy, w₁, he, hd, hbuild, rfl, hinstalled, fun hcurrent => ?_, fun later params args hcount => ?_⟩
  · rw [World.dispatching_of_some hcurrent, eq_of_dispatcherOf? hset hbuild hcurrent]
  -- the subtype of the corrected request is that of the first one
  have hagain (d' : DispatcherId) : (r.corrected d' params args).buildType p (w₁.dispatching proxy d) =
      (.ok proxy, w₁.dispatching proxy d) :=
    buildType_again hs hp hdeclared hbuild (w₁.types_dispatching proxy d) (w₁.platforms_dispatching proxy d)
  obtain ⟨new, hnew, hnumbered⟩ := grown_of_buildType hs hdeclared hbuild
  have hname : (w₁.dispatching proxy d).types.nameOf r.base = w.types.nameOf r.base := by
    rw [World.types_dispatching, hnew, TypeTable.nameOf, TypeTable.nameOf,
      hnumbered.lookup?_append (hdeclared r.base List.mem_cons_self)]
  constructor
  · rw [build_apply (d := d) rfl hcount (hagain d),
      build_apply (r := r.corrected d params args) (d := d) rfl hcount hbuild,
      if_pos fun current hc => Option.some.inj (hc.symm.trans hinstalled), if_pos hfits,
      World.dispatching_of_some hinstalled]
    change constructed _ later ((w₁.dispatching proxy d).types.nameOf r.base) _ _ _ = _
    rw [hname, World.types_dispatching]
    rfl
  · intro d' hne
    rw [build_apply (d := d') rfl hcount (hagain d'), if_neg fun hall => hne (hall d hinstalled).symm]

end ExtensionRequest

/-! ## A class that two dispatchers ask for -/

/-- A subtype that is generated with a dispatcher is generated without one, and then it has none. -/
theorem World.generate_none_of_generate {e : Emitter} {base : TypeId} {interfaces properties : List TypeId}
    {parent : Loader} {k : DispatcherId}
    (h : World.generate e base interfaces properties parent (some k) w = (.ok proxy, w₁)) :
    World.generate e base interfaces properties parent none w =
      (.ok proxy, { w₁ with installed := w₁.installed.tail }) := by
  rw [generate] at h ⊢
  cases hlookup : w.types.lookup? base with
  | none =>
      rw [hlookup] at h
      cases h
  | some t =>
      rw [hlookup] at h
      dsimp only at h ⊢
      rcases hlayers : w.emitLayers e (subtypeLoaderName t) t (dedupIds interfaces) properties parent with
        ⟨_ | id, w₀⟩
      · rw [hlayers] at h
        cases h
      · rw [hlayers] at h
        dsimp only at h ⊢
        cases hset : w₀.dispatcherOf? id with
        | some current =>
            simp only [install, hset] at h
            cases h
        | none =>
            simp only [install, hset] at h
            cases h
            rfl

/-- The world with the class and two dispatchers that answer calls in their own ways. -/
def servedWorld : World :=
  { valveWorld with
    dispatchers := valveWorld.dispatchers ++ #[.custom fun _ _ _ => .done (.str "first"),
      .custom fun _ _ _ => .done (.str "second")] }

theorem sane_servedWorld : servedWorld.Sane := by
  refine sane_valveWorld.grown List.suffix_rfl sane_valveWorld.numbered (fun i d hd => ?_) (fun _ _ hd => hd) rfl rfl
    (fun _ => rfl) sane_valveWorld.accessors fun _ _ _ hentry => .inl hentry
  exact Array.getElem?_append_left (Array.getElem?_eq_some_iff.1 hd).1 |>.trans hd

/-- A request for an object of a subtype of the class, by a dispatcher. -/
def servedRequest (d : DispatcherId) (params : List ValueType) (args : List Value) : ExtensionRequest :=
  ⟨valve.id, [], [], some d, params, args, .system⟩

/-- The world once a subtype was generated for such a request. -/
def World.served (w : World) : World :=
  World.keeping { w with installed := w.installed.tail } .first
    (Registry.generated {} (servedRequest ⟨1⟩ [] []).key ⟨4⟩)

/-- Whether the subtype has no dispatcher, was generated once, and has a constructor without parameters, and none that
takes a number. -/
def World.Serves (w : World) : Prop :=
  w.served.dispatcherOf? ⟨4⟩ = none ∧
  (w.served.platform .first).unmanaged.generations = 1 ∧
  ((w.served.types.lookup? ⟨4⟩).bind (·.findConstructor? [.primitive .int])).isNone = true ∧
  ((servedRequest ⟨2⟩ [] []).constructed (exec 30 6) "Gauge" w.served.types ⟨4⟩ (w.served.dispatching ⟨4⟩ ⟨2⟩)).1 =
    .ok (.ok valveObject)

instance : DecidablePred World.Serves := fun _ => inferInstanceAs (Decidable (_ ∧ _))

/-- So it is in the world with the two dispatchers. -/
theorem exists_serves : ∃ w : World, w.Serves ∧ ∀ (d : DispatcherId) (params : List ValueType) (args : List Value),
    (servedRequest d params args).buildType .first servedWorld = (.ok ⟨4⟩, w.served) := by
  have hgenerate : ∃ w : World, World.generate ⟨.weave, false⟩ valve.id [] [] .system (some ⟨0⟩) servedWorld =
      (.ok ⟨4⟩, w) ∧ w.Serves := by
    apply World.exists_generate (P := World.Serves)
    · rfl
    · rfl
    · rw [TypeTable.harvestAbstract, TypeTable.harvest, TypeTable.interfaceList, TypeTable.extendFound]
      rfl
    · rfl
    · exact TypeTable.harvest_singleton rfl rfl rfl
    · apply exists_eq_ok_of_decide (P := fun w : World => World.Serves { w with installed := _ })
      decide +kernel
    · rfl
  obtain ⟨w, hw, h⟩ := hgenerate
  refine ⟨w, h, fun d params args => ?_⟩
  have hmade : (servedRequest d params args).generate .first servedWorld =
      (.ok ⟨4⟩, { w with installed := w.installed.tail }) := World.generate_none_of_generate hw
  rw [ExtensionRequest.buildType_eq rfl, Registry.getOrCreate_eq]
  simp only [Registry.generate, hmade]
  rfl

/-- A request for an object that is constructed with a number is refused, and leaves the subtype with its dispatcher. -/
theorem World.Serves.build_number {w : World} (h : w.Serves)
    (hbuild : ∀ d params args, (servedRequest d params args).buildType .first servedWorld = (.ok ⟨4⟩, w.served)) :
    (servedRequest ⟨1⟩ [.primitive .int] [.prim (.int 1)]).build (exec 30 6) .first servedWorld =
      (.ok (.error (.config (.noSuchConstructor "Gauge" [.primitive .int]))), w.served.dispatching ⟨4⟩ ⟨1⟩) := by
  obtain ⟨hnone, -, hnumber, -⟩ := h
  rw [ExtensionRequest.build_apply (d := ⟨1⟩) rfl rfl (hbuild _ _ _), if_pos, ExtensionRequest.constructed]
  · have hnot : (w.served.types.lookup? ⟨4⟩).bind (·.findConstructor? [.primitive .int]) = none :=
      Option.isNone_iff_eq_none.1 hnumber
    simp only [servedRequest, hnot]
    rfl
  · intro current hcurrent
    cases hnone.symm.trans hcurrent

/-- The request for an object without that number is answered as if the other one had not been refused. -/
theorem ExtensionRequest.build_refused_served : ∃ w',
    (servedRequest ⟨1⟩ [.primitive .int] [.prim (.int 1)]).build (exec 30 6) .first servedWorld =
      (.ok (.error (.config (.noSuchConstructor "Gauge" [.primitive .int]))), w') ∧
    (servedRequest ⟨1⟩ [] []).build (exec 30 6) .first w' =
      (servedRequest ⟨1⟩ [] []).build (exec 30 6) .first servedWorld := by
  obtain ⟨w, h, hbuild⟩ := exists_serves
  have hrefused := h.build_number hbuild
  refine ⟨_, hrefused, ?_⟩
  rcases ExtensionRequest.build_refused sane_servedWorld nofun (by decide) (by decide) hrefused with
    ⟨-, hother⟩ | ⟨d, proxy, w₁, -, hd, -, -, -, -, hlater⟩
  · exact absurd rfl (hother _ _)
  · cases hd
    exact (hlater (exec 30 6) [] [] rfl).1

/-- A request of one dispatcher that is refused for its constructor has a subtype generated, and the request of another
one is refused for it, which would have been answered. -/
theorem ExtensionRequest.build_refused_differs : ∃ w' name after,
    (servedRequest ⟨1⟩ [.primitive .int] [.prim (.int 1)]).build (exec 30 6) .first servedWorld =
      (.ok (.error (.config (.noSuchConstructor "Gauge" [.primitive .int]))), w') ∧
    (servedWorld.platform .first).unmanaged.generations = 0 ∧ (w'.platform .first).unmanaged.generations = 1 ∧
    (servedRequest ⟨2⟩ [] []).build (exec 30 6) .first w' =
      (.ok (.error (.config (.dispatcherAlreadySet name))), w') ∧
    (servedRequest ⟨2⟩ [] []).build (exec 30 6) .first servedWorld = (.ok (.ok valveObject), after) := by
  obtain ⟨w, h, hbuild⟩ := exists_serves
  have hrefused := h.build_number hbuild
  obtain ⟨hnone, hcount, -, hmade⟩ := h
  have hset : (w.served.dispatching ⟨4⟩ ⟨1⟩).dispatcherOf? ⟨4⟩ = some ⟨1⟩ := by
    rw [World.dispatcherOf?_dispatching, hnone]
    rfl
  have hagain : (servedRequest ⟨2⟩ [] []).buildType .first (w.served.dispatching ⟨4⟩ ⟨1⟩) =
      (.ok ⟨4⟩, w.served.dispatching ⟨4⟩ ⟨1⟩) :=
    ExtensionRequest.buildType_again sane_servedWorld (by decide) (by decide) (hbuild _ _ _)
      (World.types_dispatching ..) (World.platforms_dispatching ..)
  refine ⟨_, (w.served.dispatching ⟨4⟩ ⟨1⟩).types.nameOf ⟨4⟩, _, hrefused, rfl, ?_, ?_, Prod.ext ?_ rfl⟩
  · rw [World.platform, World.platforms_dispatching]
    exact hcount
  · rw [ExtensionRequest.build_apply (d := ⟨2⟩) rfl rfl hagain, if_neg fun hall => ?_]
    cases hall _ hset
  · rw [ExtensionRequest.build_apply (d := ⟨2⟩) rfl rfl (hbuild _ _ _), if_pos fun current hcurrent => ?_]
    · exact hmade
    · cases hnone.symm.trans hcurrent

end Interpose
