import Interpose.Proofs.Granting
import Interpose.Proofs.Invariants
import Interpose.Proofs.Sparing

/-!
# Remembered accessors

A platform remembers the accessors that it finds by the class and by the slot of the operation, so operations that
differ in anything else share what is remembered. However it was consulted, and whatever ran in between, it
answers as if it looked each accessor up afresh: types are only added, and an accessor is found by what the slot
says and above the class only. Each pair is looked up with success once, and what is not found leaves no trace.
-/

namespace Interpose

/-! ## What is remembered -/

namespace AccessorCache

variable {types : TypeTable} {cache : AccessorCache} {real : TypeId} {slot : Slot} {op : Method}
  {found : ResolvedAccessor}

/-- Whether each pair is remembered once, and as many were looked up with success. -/
structure Counted (cache : AccessorCache) : Prop where
  once : (cache.entries.map (·.1)).Nodup
  resolutions : cache.resolutions = cache.entries.length

theorem counted_empty : Counted {} := ⟨List.nodup_nil, rfl⟩

theorem notMem_keys_of_get? (h : cache.get? real slot = none) : (real, slot) ∉ cache.entries.map (·.1) := by
  rw [get?, Option.map_eq_none_iff, List.find?_eq_none] at h
  intro hmem
  obtain ⟨e, he, hkey⟩ := List.mem_map.1 hmem
  exact h e he (beq_iff_eq.2 hkey)

theorem get?_add (cache : AccessorCache) (real : TypeId) (found : ResolvedAccessor) :
    (cache.add real found).get? real found.operation.slot = some found := by
  have hfind : (cache.add real found).entries.find? (·.1 == (real, found.operation.slot)) =
      some ((real, found.operation.slot), found) := List.find?_cons_of_pos (beq_self_eq_true _)
  rw [get?, hfind, Option.map_some]

theorem Counted.add (h : cache.Counted) (hnew : cache.get? real found.operation.slot = none) :
    (cache.add real found).Counted where
  once := List.nodup_cons.2 ⟨notMem_keys_of_get? hnew, h.once⟩
  resolutions := congrArg (· + 1) h.resolutions

theorem Counted.resolve (h : cache.Counted) (types : TypeTable) (real : TypeId) (op : Method) :
    (cache.resolve types real op).2.Counted := by
  rcases resolve_cases types real op cache with ⟨known, -, heq⟩ | ⟨e, -, heq⟩ | ⟨m, hnew, -, heq⟩
  all_goals rw [heq]
  · exact h
  · exact h
  · exact h.add hnew

end AccessorCache

/-! ## Consulting a platform -/

namespace Runner

theorem resolve_snd (p : PlatformId) (real : TypeId) (op : Method) (w : World) :
    (resolve p real op w).2 = w.recalling p ((w.platform p).accessors.resolve w.types real op).2 := by
  rw [resolve_eq]
  cases ((w.platform p).accessors.resolve w.types real op).1 <;> rfl

/-- Runs what an operation overrides, with its accessor looked up afresh. -/
def overriddenAfresh (run : Runner) (this : ObjectRef) (op : Method) (args : List Value) : Action Value := do
  let m ← Action.withTypes fun types => types.findAccessor this.cls op
  run.runAccessor ⟨op, m⟩ this args

end Runner

theorem World.Steady.keeps_accessors {C : AccessorCache → Prop} {w w' : World} (h : w.Steady w') (p : PlatformId)
    (hw : C (w.platform p).accessors) : C (w'.platform p).accessors := by
  rw [h.accessors]
  exact hw

/-- All that runs do to what a platform remembers is that they look accessors up. -/
theorem World.invariant_accessors {C : AccessorCache → Prop} (p : PlatformId)
    (h : ∀ types real op cache, C cache → C (cache.resolve types real op).2) :
    World.Invariant fun w => C (w.platform p).accessors where
  rest _ _ _ _ _ hw := hw
  allocate cls hw := (steady_allocate cls _).keeps_accessors p hw
  setField o name v hw := (steady_setField o name v _).keeps_accessors p hw
  bind o id hw := (steady_bind o id _).keeps_accessors p hw
  boundTo o hw := (steady_boundTo o _).keeps_accessors p hw
  addInstance i hw := (steady_addInstance i _).keeps_accessors p hw
  setProperty id name v hw := (steady_setProperty id name v _).keeps_accessors p hw
  resolve q real op hw := by
    rw [Runner.resolve_snd, accessors_recalling]
    split
    case isTrue hq => exact h _ _ _ _ (hq.1 ▸ hw)
    case isFalse => exact hw
  marked q mark hw := by
    rw [marked, platform_modify]
    split <;> exact hw
  request q n _ hw := by
    obtain ⟨r, hr⟩ := platform_createExtensionType q p n.2.base n.2.interfaces n.2.propertyInterfaces .system _
    rw [hr]
    exact hw

/-- Whether a platform was consulted from one world to another: directly, by calls of what operations override, by
tasks, by requests and instructions of bodies that run, and while script objects are made, whose bridges are
marked then. In between anything may have happened that leaves what the platform remembers as it is. -/
inductive World.Consulted (p : PlatformId) (w : World) : World → Prop
  | start : Consulted p w w
  | resolve {w' : World} (before : Consulted p w w') (real : TypeId) (op : Method) :
      Consulted p w (Runner.resolve p real op w').2
  | overridden {w' : World} (before : Consulted p w w') (steps depth : Nat) (this : ObjectRef) (op : Method)
      (args : List Value) : Consulted p w ((exec steps depth).overridden p this op args w').2
  | run {w' : World} (before : Consulted p w w') (steps depth : Nat) (task : Task) :
      Consulted p w (exec steps depth task w').2
  | perform {w' : World} (before : Consulted p w w') (steps depth : Nat) (r : Request) :
      Consulted p w ((exec steps depth).perform r w').2
  | advance {w' : World} (before : Consulted p w w') (steps depth : Nat) (unit : CompiledBody) (pc : Nat) (f : Frame) :
      Consulted p w (unit.advance (exec steps depth) pc f w').2
  | create {w' : World} (before : Consulted p w w') (steps depth : Nat) (q : PlatformId) (proxy : TypeId)
      (script : ScriptType) (params : List ValueType) (args : List Value) :
      Consulted p w ((exec steps depth).createInstance q proxy script params args w').2
  | extend {w' : World} (before : Consulted p w w') (steps depth : Nat) (q : PlatformId) (script : ScriptType)
      (params : List ValueType) (args : List Value) (declared : script.Declared w'.types) :
      Consulted p w ((exec steps depth).extend q script params args w').2
  | marked {w' : World} (before : Consulted p w w') (q : PlatformId) (mark : Option ObjectRef) :
      Consulted p w (w'.marked q mark)
  | meanwhile {w' w'' : World} (before : Consulted p w w') (later : w'.Later w'')
      (same : (w''.platform p).accessors = (w'.platform p).accessors) : Consulted p w w''

/-- Whether a world is sane, and a platform of it remembers the accessors that were looked up. -/
structure World.Recalls (w : World) (p : PlatformId) : Prop where
  sane : w.Sane
  size : p.index < w.platforms.size
  counted : (w.platform p).accessors.Counted

namespace World.Recalls

variable {w w' : World} {p : PlatformId}

theorem later (h : w.Recalls p) (hlater : w.Later w') (hcounted : (w'.platform p).accessors.Counted) :
    w'.Recalls p :=
  ⟨hlater.sane h.sane, Nat.lt_of_lt_of_le h.size hlater.size, hcounted⟩

/-- However a platform was consulted, it remembers the accessors that were looked up. -/
theorem of_consulted (h : w.Recalls p) (hconsulted : w.Consulted p w') : w'.Recalls p := by
  have hinvariant := invariant_accessors p fun types real op cache (hc : cache.Counted) => hc.resolve types real op
  have hexec (steps depth : Nat) := Runner.preserves_exec hinvariant steps depth
  induction hconsulted with
  | start => exact h
  | resolve _ real op ih => exact ih.later (Runner.keeps_resolve p real op _) (hinvariant.resolve p real op ih.counted)
  | overridden _ steps depth this op args ih =>
      exact ih.later ((Runner.routine_overridden p this op args).uniform.later steps depth _)
        ((Runner.routine_overridden p this op args).preserves hinvariant.toKeptAside (hexec steps depth) _ ih.counted)
  | run _ steps depth task ih =>
      exact ih.later (agreeAt_exec steps depth task _).later (hexec steps depth task _ ih.counted)
  | perform _ steps depth r ih =>
      exact ih.later (Runner.later_perform steps depth r _)
        (Runner.preserves_perform hinvariant (hexec steps depth) r _ ih.counted)
  | advance _ steps depth unit pc f ih =>
      exact ih.later ((unit.routine_advance pc f).uniform.later steps depth _)
        ((unit.routine_advance pc f).preserves hinvariant.toKeptAside (hexec steps depth) _ ih.counted)
  | create _ steps depth q proxy script params args ih =>
      exact ih.later (Runner.later_createInstance rfl)
        (Runner.preserves_createInstance hinvariant.toKeptAside (hexec steps depth) q proxy script params args _ ih.counted)
  | @extend w' _ steps depth q script params args declared ih =>
      obtain ⟨r, hr⟩ := w'.platform_createExtensionType q p script.base script.interfaces script.propertyInterfaces
        .system
      refine ih.later (Runner.later_extend fun _ => declared) (Runner.preservesAt_extend hinvariant.toKeptAside
        (hexec steps depth) (fun hw => ?_) params args ih.counted)
      rw [hr]
      exact hw
  | marked _ q mark ih =>
      refine ⟨ih.sane.marked, ?_, hinvariant.marked q mark ih.counted⟩
      rw [World.marked, Array.size_modify]
      exact ih.size
  | meanwhile _ later same ih => exact ih.later later (same ▸ ih.counted)

variable {real : TypeId} {op m : Method}

/-- What is found afresh is found, and remembered then if it was not before. -/
theorem resolve_of_ok (h : w.Recalls p) (hfound : w.types.findAccessor real op = .ok m) :
    ∃ known w', Runner.resolve p real op w = (.ok known, w') ∧ known.accessor = m ∧
      (w'.platform p).accessors.get? real op.slot = some known ∧
      ((w.platform p).accessors.get? real op.slot = some known ∧ w' = w ∨
        (w.platform p).accessors.get? real op.slot = none ∧
          w' = w.recalling p ((w.platform p).accessors.add real known)) := by
  rcases Runner.resolve_cases p real op w with ⟨known, hknown, heq⟩ | ⟨e, hnone, -⟩ | ⟨m', hnew, hfound', heq⟩
  · have hsound := AccessorCache.findAccessor_of_get? (h.sane.accessors p) hknown
    cases hfound.symm.trans hsound
    exact ⟨known, w, heq, rfl, hknown, .inl ⟨hknown, rfl⟩⟩
  · cases hfound.symm.trans hnone
  · cases hfound.symm.trans hfound'
    refine ⟨_, _, heq, rfl, ?_, .inr ⟨hnew, rfl⟩⟩
    rw [accessors_recalling, if_pos ⟨rfl, h.size⟩]
    exact AccessorCache.get?_add _ real ⟨op, m⟩

/-- What an operation overrides is run as if its accessor were looked up afresh, in the world that remembers it. -/
theorem overridden_eq (h : w.Recalls p) (run : Runner) (this : ObjectRef) (op : Method) (args : List Value) :
    run.overridden p this op args w =
      run.overriddenAfresh this op args (Runner.resolve p this.cls op w).2 := by
  cases hfound : w.types.findAccessor this.cls op with
  | error e =>
      have hresolve := Runner.resolve_of_error (h.sane.accessors p) hfound
      rw [hresolve, Runner.overridden, Runner.overriddenAfresh, Action.bind_apply, Action.bind_apply, hresolve,
        Action.withTypes, hfound]
      rfl
  | ok m =>
      obtain ⟨known, w', hresolve, rfl, -, hafter⟩ := h.resolve_of_ok hfound
      have htypes : w'.types = w.types := by
        rcases hafter with ⟨-, rfl⟩ | ⟨-, rfl⟩
        · rfl
        · rfl
      rw [hresolve, Runner.overridden, Runner.overriddenAfresh, Action.bind_apply, Action.bind_apply, hresolve,
        Action.withTypes, htypes, hfound]
      rfl

end World.Recalls

/-- **The memory of accessors.** However a platform was consulted that remembered nothing at first, it remembers each
pair once and as many as it looked up with success. If it is consulted then, for any class and operation, the
answer is the accessor or the error of looking it up afresh. A failure changes nothing, and nor does an answer
that is remembered for the pair; any other answer is remembered, and counted. And what an operation overrides is
run as if its accessor were looked up afresh. -/
theorem World.resolve_of_consulted {w w' : World} {p : PlatformId} (hs : w.Sane) (hp : p.index < w.platforms.size)
    (hempty : (w.platform p).accessors = {}) (h : w.Consulted p w') :
    (w'.platform p).accessors.Counted ∧
    (∀ real op,
      (Runner.resolve p real op w').1.map (·.accessor) = (w'.types.findAccessor real op).mapError .raised ∧
      (∀ halt, (Runner.resolve p real op w').1 = .error halt → (Runner.resolve p real op w').2 = w') ∧
      ∀ known, (Runner.resolve p real op w').1 = .ok known →
        ((Runner.resolve p real op w').2.platform p).accessors.get? real op.slot = some known ∧
        ((w'.platform p).accessors.get? real op.slot = some known ∧ (Runner.resolve p real op w').2 = w' ∨
          (w'.platform p).accessors.get? real op.slot = none ∧
            (Runner.resolve p real op w').2 = w'.recalling p ((w'.platform p).accessors.add real known))) ∧
    ∀ (run : Runner) this op args, run.overridden p this op args w' =
      run.overriddenAfresh this op args (Runner.resolve p this.cls op w').2 := by
  have hrecalls : w'.Recalls p := Recalls.of_consulted ⟨hs, hp, hempty ▸ AccessorCache.counted_empty⟩ h
  refine ⟨hrecalls.counted, fun real op => ?_, hrecalls.overridden_eq⟩
  cases hfound : w'.types.findAccessor real op with
  | error e =>
      rw [Runner.resolve_of_error (hrecalls.sane.accessors p) hfound]
      exact ⟨rfl, fun _ _ => rfl, nofun⟩
  | ok m =>
      obtain ⟨known, w'', hresolve, rfl, hget, hafter⟩ := hrecalls.resolve_of_ok hfound
      rw [hresolve]
      refine ⟨rfl, nofun, fun known' hknown => ?_⟩
      cases hknown
      exact ⟨hget, hafter⟩

/-! ## An accessor that operations share -/

/-- What an operation overrides, under the name of its accessor. -/
def superMeasure : Method :=
  { measureObject with name := Naming.accessor measureObject.name measureObject.returns }

/-- An operation of another class with the same slot. -/
def meterMeasure : Method := { measureObject with declaring := "Meter" }

/-- The world with the class that declares the operation and its accessor. -/
def measuringWorld : World :=
  { World.initial {} with types := gauge [measureObject, superMeasure] :: TypeTable.initial }

/-- The same after an overload that has no accessor was looked up, and then what the operation overrides was called. -/
def measuredWorld : World :=
  ((exec 20 3).overridden .first ⟨0, ⟨2⟩⟩ measureObject [.str "rod"]
    (Runner.resolve .first ⟨2⟩ measureString measuringWorld).2).2

/-- The other operation has the accessor that was looked up, the overload has none still, and neither changes
anything. -/
theorem World.resolve_of_consulted_measured : measuringWorld.Sane ∧ measuringWorld.Consulted .first measuredWorld ∧
    (measuredWorld.platform .first).accessors.resolutions = 1 ∧
    (∃ known, Runner.resolve .first ⟨2⟩ meterMeasure measuredWorld = (.ok known, measuredWorld) ∧
      known.accessor.name = "super$measure$int") ∧
    Runner.resolve .first ⟨2⟩ measureString measuredWorld =
      (.error (.raised (.noSuchMethod "Gauge.super$measure$int")), measuredWorld) := by
  have hsane : measuringWorld.Sane := sane_of_types {} (numbered_gauge _) ⟨[_], rfl⟩
  have hconsulted : measuringWorld.Consulted .first measuredWorld :=
    (Consulted.start.resolve ⟨2⟩ measureString).overridden 20 3 _ _ _
  obtain ⟨hcounted, hresolve, -⟩ := resolve_of_consulted hsane (by decide) rfl hconsulted
  have hlength : (measuredWorld.platform .first).accessors.entries.length = 1 := by decide +kernel
  refine ⟨hsane, hconsulted, hcounted.resolutions.trans hlength, ?_, ?_⟩
  · have hmeter : (measuredWorld.types.findAccessor ⟨2⟩ meterMeasure).map (·.name) = .ok "super$measure$int" := by
      decide +kernel
    have hknown : ((measuredWorld.platform .first).accessors.get? ⟨2⟩ meterMeasure.slot).isSome := by decide +kernel
    obtain ⟨m, hm, hname⟩ := map_eq_ok.1 hmeter
    obtain ⟨hanswer, -, hafter⟩ := hresolve ⟨2⟩ meterMeasure
    rw [hm] at hanswer
    obtain ⟨known, hok, rfl⟩ := map_eq_ok.1 hanswer
    rcases hafter known hok with ⟨-, ⟨-, hsame⟩ | ⟨hnew, -⟩⟩
    · exact ⟨known, Prod.ext hok hsame, hname⟩
    · rw [hnew] at hknown
      cases hknown
  · have hstring : (measuredWorld.types.findAccessor ⟨2⟩ measureString).map (·.name) =
        .error (.noSuchMethod "Gauge.super$measure$int") := by decide +kernel
    obtain ⟨hanswer, hfailed, -⟩ := hresolve ⟨2⟩ measureString
    cases hnone : measuredWorld.types.findAccessor ⟨2⟩ measureString with
    | ok m =>
        rw [hnone] at hstring
        cases hstring
    | error e =>
        rw [hnone] at hstring hanswer
        cases hstring
        cases hfirst : (Runner.resolve .first ⟨2⟩ measureString measuredWorld).1 with
        | ok known =>
            rw [hfirst] at hanswer
            cases hanswer
        | error halt =>
            rw [hfirst] at hanswer
            cases hanswer
            exact Prod.ext hfirst (hfailed _ hfirst)

end Interpose
