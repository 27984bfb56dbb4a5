import Interpose.Proofs.Runs

/-!
# Script objects that are made

A script object that a platform makes has a bridge of a subtype that was generated for the platform, and
the bridge is bound to it. Whatever ran while it was made, the world is a later one.
-/

namespace Interpose

/-! ## Requests that are answered -/

namespace PlatformAction

variable {α β : Type} {w w' : World}

/-- A request that is answered after another one was. -/
theorem bind_eq_ok {x : PlatformAction α} {f : α → PlatformAction β} {b : β}
    (h : (x >>= f) w = (.ok (.ok b), w')) :
    ∃ a w₁, x w = (.ok (.ok a), w₁) ∧ f a w₁ = (.ok (.ok b), w') := by
  have hbind : (x >>= f) w = ((show Action (Except PlatformError α) from x) >>= ExceptT.bindCont f) w := rfl
  rw [hbind, Action.bind_apply] at h
  rcases hx : x w with ⟨_ | r, w₁⟩
  · rw [hx] at h
    cases h
  · rw [hx] at h
    cases r with
    | error e => cases h
    | ok a => exact ⟨a, w₁, rfl, h⟩

/-- A computation on the world that ended with a value, and a request that is answered after it. -/
theorem lift_bind_eq_ok {x : Action α} {f : α → PlatformAction β} {b : β}
    (h : (liftM x >>= f : PlatformAction β) w = (.ok (.ok b), w')) :
    ∃ a w₁, x w = (.ok a, w₁) ∧ f a w₁ = (.ok (.ok b), w') := by
  have hbind := congrFun (run_lift_bind x f) w
  rw [Action.bind_apply] at hbind
  rcases hx : x w with ⟨_ | a, w₁⟩
  · rw [hx] at hbind
    cases hbind.symm.trans h
  · rw [hx] at hbind
    exact ⟨a, w₁, rfl, hbind.symm.trans h⟩

/-- What follows a computation on the world. -/
theorem lift_bind_apply_ok {x : Action α} {f : α → PlatformAction β} {a : α} (h : x w = (.ok a, w')) :
    (liftM x >>= f : PlatformAction β) w = f a w' :=
  (congrFun (run_lift_bind x f) w).trans (Action.bind_apply_ok h)

theorem lift_bind_apply_error {x : Action α} {f : α → PlatformAction β} {e : Halt} (h : x w = (.error e, w')) :
    (liftM x >>= f : PlatformAction β) w = (.error e, w') :=
  (congrFun (run_lift_bind x f) w).trans (Action.bind_apply_error h)

/-- What follows a request. -/
theorem bind_apply_ok {x : PlatformAction α} {f : α → PlatformAction β} {r : Except PlatformError α}
    (h : x w = (.ok r, w')) : (x >>= f) w = ExceptT.bindCont f r w' := by
  have hbind : (x >>= f) w = ((show Action (Except PlatformError α) from x) >>= ExceptT.bindCont f) w := rfl
  rw [hbind, Action.bind_apply_ok h]

theorem ofHost_apply_ok {x : Action α} {a : α} (h : x w = (.ok a, w')) : ofHost x w = (.ok (.ok a), w') := by
  have houtcome : Action.outcome x w = (.ok (.ok a), w') := by rw [Action.outcome, h]
  exact lift_bind_apply_ok houtcome

theorem ofHost_apply_error {x : Action α} {e : HostError} (h : x w = (.error (.raised e), w')) :
    ofHost x w = (.ok (.error (.host e)), w') := by
  have houtcome : Action.outcome x w = (.ok (.error e), w') := by rw [Action.outcome, h]
  exact lift_bind_apply_ok houtcome

theorem ofHost_eq_ok {x : Action α} {a : α} (h : ofHost x w = (.ok (.ok a), w')) :
    x w = (.ok a, w') := by
  obtain ⟨r, w₁, hr, hrest⟩ := lift_bind_eq_ok h
  rw [Action.outcome] at hr
  rcases hx : x w with ⟨(_ | e) | b, w₂⟩
  · rw [hx] at hr
    cases hr
  · rw [hx] at hr
    cases hr
    cases hrest
  · rw [hx] at hr
    cases hr
    cases hrest
    rfl

end PlatformAction

namespace World

variable {w w' : World} {cls : TypeId} {o : ObjectRef} {id : InstanceId} {p : PlatformId} {α : Type}

/-- A world with a new object of a type, which is bound to nothing. -/
def allocated (w : World) (cls : TypeId) : World :=
  { w with objects := w.objects.push ⟨cls, w.types.initialFields cls, .unbound⟩ }

/-- A world with one more script object. -/
def withInstance (w : World) (i : Instance) : World := { w with instances := w.instances.push i }

/-- A world in which an object is bound to a script object. -/
def withBinding (w : World) (o : ObjectRef) (id : InstanceId) : World :=
  { w with objects := w.objects.modify o.index fun s => { s with binding := .bound id } }

theorem allocate_eq_ok (h : allocate cls w = (.ok o, w')) : o = ⟨w.objects.size, cls⟩ ∧ w' = w.allocated cls := by
  rw [allocate, Action.bind_apply_ok (Action.get_apply w)] at h
  rcases hlookup : w.types.lookup? cls with _ | t
  · simp only [hlookup] at h
    cases h
  · simp only [hlookup] at h
    split at h
    · cases h
    · cases h
      exact ⟨rfl, rfl⟩

/-- Objects of a type that is not abstract can be made. -/
theorem allocate_apply {t : HostType} (hlookup : w.types.lookup? cls = some t) (hconcrete : t.isAbstract = false) :
    allocate cls w = (.ok ⟨w.objects.size, cls⟩, w.allocated cls) := by
  rw [allocate, Action.bind_apply_ok (Action.get_apply w)]
  simp only [hlookup, hconcrete]
  rfl

/-- What is computed with an object marked. -/
theorem constructing_apply {x : PlatformAction α} {r : Except Halt (Except PlatformError α)}
    (h : x (w.marked p (some o)) = (r, w')) :
    constructing p o x w = (r, w'.marked p (w.platform p).constructing) := by
  rw [marked] at h
  rw [constructing, Action.finally_]
  simp only [h]
  rfl

theorem constructing_eq_ok {x : PlatformAction α} {a : α} (h : constructing p o x w = (.ok (.ok a), w')) :
    ∃ w₁, x (w.marked p (some o)) = (.ok (.ok a), w₁) ∧
      w' = w₁.marked p (w.platform p).constructing := by
  rcases hx : x (w.marked p (some o)) with ⟨r, w₁⟩
  rw [constructing_apply hx] at h
  cases h
  exact ⟨w₁, rfl, rfl⟩

theorem addInstance_apply (i : Instance) : addInstance i w = (.ok ⟨w.instances.size⟩, w.withInstance i) := rfl

/-- Only an object that was never bound is bound. -/
theorem bind_apply : bind o id w = if w.isBound o then (.ok false, w) else (.ok true, w.withBinding o id) := by
  rw [bind, Action.bind_apply_ok (Action.get_apply w)]
  cases w.isBound o <;> rfl

theorem bind_eq_true (h : bind o id w = (.ok true, w')) : w' = w.withBinding o id := by
  rw [bind_apply] at h
  split at h
  · cases h
  · cases h
    rfl

end World

/-! ## Making a script object -/

/-- A registry to which the subtype of a key was added. -/
def Registry.generated (r : Registry) (key : CacheKey) (subtype : TypeId) : Registry :=
  { r.put key (some subtype) with generations := r.generations + 1 }

/-- A world in which a platform has another registry. -/
def World.remembering (w : World) (p : PlatformId) (r : Registry) : World :=
  { w with platforms := w.platforms.modify p.index fun s => { s with registry := r } }

/-- A subtype that was not asked for before is generated and remembered. -/
theorem World.createExtensionType_apply_of_generate {w w' : World} {p : PlatformId} {base proxy : TypeId}
    {interfaces properties : List TypeId} {parent : Loader} (hinterfaces : w.classAmong? interfaces = none)
    (hproperties : w.classAmong? properties = none)
    (hnone : (w.platform p).registry.get? (CacheKey.of base interfaces properties parent) = none)
    (h : World.generate (w.emitter p) base interfaces properties parent (some (w.platform p).dispatcher) w =
      (.ok proxy, w')) :
    w.createExtensionType p base interfaces properties parent = (.ok proxy, w'.remembering p
      ((w.platform p).registry.generated (CacheKey.of base interfaces properties parent) proxy)) := by
  rw [createExtensionType]
  simp only [hinterfaces, hproperties, fromRegistry, Registry.getOrCreate_eq, hnone, Registry.generate, h, remembering,
    Registry.generated]

/-- Whether an object was made as the bridge of a script object: both know each other. -/
structure World.Made (w : World) (p : PlatformId) (proxy : TypeId) (s : ScriptType) (id : InstanceId)
    (o : ObjectRef) : Prop where
  «instance» : ∃ i, w.instances[id.index]? = some i ∧ i.script = s ∧ i.bridge = o ∧ i.platform = p
  object : ∃ state, w.objects[o.index]? = some state ∧ state.binding = .bound id
  cls : o.cls = proxy

namespace Runner

variable {w w' : World} {p : PlatformId} {proxy : TypeId} {script : ScriptType} {params : List ValueType}
  {args : List Value} {id : InstanceId} {steps depth : Nat}

/-- A script object that is made has a bridge of the type that was asked for. -/
theorem made_of_createInstance
    (h : (exec steps depth).createInstance p proxy script params args w = (.ok (.ok id), w')) :
    ∃ o, w'.Made p proxy script id o := by
  obtain ⟨w, _, hget, h⟩ := PlatformAction.lift_bind_eq_ok h
  cases hget
  dsimp only at h
  split at h
  · cases h
  rcases hctor : (w.types.lookup? proxy).bind (·.findConstructor? params) with _ | c
  · simp only [hctor] at h
    cases h
  simp only [hctor] at h
  -- the bridge is allocated, marked while its constructor runs, and bound at the end
  obtain ⟨o, w₁, ho, h⟩ := PlatformAction.bind_eq_ok h
  obtain ⟨rfl, hw₁⟩ := World.allocate_eq_ok (PlatformAction.ofHost_eq_ok ho)
  obtain ⟨w₂, hbody, rfl⟩ := World.constructing_eq_ok h
  obtain ⟨r, w₃, hrun, h⟩ := PlatformAction.lift_bind_eq_ok hbody
  cases r with
  | error e => cases h
  | ok v =>
      obtain ⟨w₃, _, hget, h⟩ := PlatformAction.lift_bind_eq_ok h
      cases hget
      obtain ⟨i, w₄, hadd, h⟩ := PlatformAction.lift_bind_eq_ok h
      cases hadd
      obtain ⟨isBound, w₅, hbind, h⟩ := PlatformAction.lift_bind_eq_ok h
      cases isBound with
      | false => cases h
      | true =>
          cases h
          -- the bridge is still there when its constructor has run
          have hlater := (agreeAt_exec steps depth (.constructor c ⟨w.objects.size, proxy⟩ args)
            (w₁.marked p (some ⟨w.objects.size, proxy⟩))).outcome.later
          rw [hrun] at hlater
          have hbridge : (w₁.marked p (some ⟨w.objects.size, proxy⟩)).objects[w.objects.size]? =
              some ⟨proxy, w.types.initialFields proxy, .unbound⟩ := by
            rw [hw₁]
            exact Array.getElem?_push_size
          obtain ⟨state, hstate, -⟩ := hlater.objects _ _ hbridge
          rw [World.bind_eq_true hbind]
          refine ⟨⟨w.objects.size, proxy⟩, ⟨_, Array.getElem?_push_size, rfl, rfl, rfl⟩,
            ⟨{ state with binding := .bound ⟨w₃.instances.size⟩ }, ?_, rfl⟩, rfl⟩
          change (w₃.objects.modify w.objects.size _)[w.objects.size]? = _
          rw [Array.getElem?_modify, if_pos rfl, hstate]
          rfl

/-- What a platform of a sane world makes for a script type is a script object whose bridge is of a subtype
that was generated for what the script type extends. -/
theorem made_of_extend (hs : w.Sane) (hp : p.index < w.platforms.size)
    (hdeclared : script.Declared w.types)
    (h : (exec steps depth).extend p script params args w = (.ok (.ok id), w')) :
    w.Later w' ∧ ∃ proxy o, w'.Made p proxy script id o ∧ w'.Answers p
      (CacheKey.of script.base script.interfaces script.propertyInterfaces .system) proxy := by
  obtain ⟨proxy, w₁, hcreated, hmade⟩ := PlatformAction.bind_eq_ok h
  rw [PlatformAction.ofWorld] at hcreated
  obtain ⟨hlater, hanswers⟩ := World.later_createExtensionType p .system (fun _ => hdeclared)
  rcases hrequest : w.createExtensionType p script.base script.interfaces script.propertyInterfaces
    .system with ⟨r, w₂⟩
  rw [hrequest] at hlater hcreated
  cases hcreated
  have hafter : w₁.Later w' := later_createInstance hmade
  obtain ⟨o, ho⟩ := made_of_createInstance hmade
  exact ⟨hlater.trans hafter, proxy, o, ho, (hanswers proxy w₁ hrequest hs hp).later hafter (hlater.sane hs)⟩

/-- A script object is made once its subtype is there. -/
theorem extend_apply {run : Runner} {r : Except PlatformError TypeId}
    (h : w.createExtensionType p script.base script.interfaces script.propertyInterfaces .system = (r, w')) :
    run.extend p script params args w =
      ExceptT.bindCont (fun proxy => run.createInstance p proxy script params args) r w' := by
  have hcreate : PlatformAction.ofWorld (World.createExtensionType p script.base script.interfaces
      script.propertyInterfaces .system) w = (.ok r, w') := by
    rw [PlatformAction.ofWorld, h]
  exact PlatformAction.bind_apply_ok hcreate

/-- Script objects are made alike if their bridges are constructed alike once the subtype is there. -/
theorem extend_congr {run run' : Runner}
    (h : ∀ proxy, run.createInstance p proxy script params args
        (w.createExtensionType p script.base script.interfaces script.propertyInterfaces .system).2 =
      run'.createInstance p proxy script params args
        (w.createExtensionType p script.base script.interfaces script.propertyInterfaces .system).2) :
    run.extend p script params args w = run'.extend p script params args w := by
  rcases hcreated : w.createExtensionType p script.base script.interfaces script.propertyInterfaces
    .system with ⟨r, w'⟩
  rw [hcreated] at h
  rw [extend_apply hcreated, extend_apply hcreated]
  cases r with
  | error e => simp only [ExceptT.bindCont]
  | ok proxy => exact h proxy

/-- What is made for a script type whose subtype was not asked for before. -/
theorem extend_apply_of_generate {run : Runner}
    (hinterfaces : w.classAmong? script.interfaces = none)
    (hproperties : w.classAmong? script.propertyInterfaces = none)
    (hnone : (w.platform p).registry.get?
      (CacheKey.of script.base script.interfaces script.propertyInterfaces .system) = none)
    (h : World.generate (w.emitter p) script.base script.interfaces script.propertyInterfaces .system
      (some (w.platform p).dispatcher) w = (.ok proxy, w')) :
    run.extend p script params args w = run.createInstance p proxy script params args
      (w'.remembering p ((w.platform p).registry.generated
        (CacheKey.of script.base script.interfaces script.propertyInterfaces .system) proxy)) := by
  have hcreated := World.createExtensionType_apply_of_generate hinterfaces hproperties hnone h
  exact extend_apply hcreated

end Runner

end Interpose
