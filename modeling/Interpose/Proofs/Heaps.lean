import Interpose.Proofs.Records
import Interpose.Proofs.Typing

/-!
# Heaps that are reached

Whatever an embedding program does and whatever its bodies do, objects stay typed: types are declared, defined and
generated on types that are there, objects are allocated, their fields are written by hand, by bodies, by generated
code and through properties, and script objects are made. Each of these keeps the objects that are there typed, and
a write that is refused leaves the world as it is.
-/

namespace Interpose

/-! ## Types that are added -/

namespace World

variable {w w' : World} {base : TypeId} {interfaces properties : List TypeId}

/-- A declared type on types that are there keeps objects typed. -/
theorem Typed.declare (h : w.Typed) {d : TypeDecl} (hsuper : ∀ s ∈ d.superclass, s.index < w.types.length)
    (hinterfaces : ∀ i ∈ d.interfaces, i.index < w.types.length) : (w.declare d).2.Typed :=
  h.grown (List.suffix_cons _ _) ⟨rfl, hsuper, hinterfaces, h.numbered⟩ rfl rfl

/-- So does a class that is defined on such types. -/
theorem Typed.define (h : w.Typed) {e : Emitter} {d : ClassDef} {loader : Loader} {id : TypeId}
    (hsuper : d.superclass.index < w.types.length) (hinterfaces : ∀ i ∈ d.interfaces, i.index < w.types.length)
    (hdefine : e.define w d loader = .ok (id, w')) : w'.Typed := by
  obtain ⟨t, arrays, ht, -, rfl⟩ := Emitter.defines_of_define hdefine
  refine h.grown (List.suffix_cons _ _) ⟨ht.id, fun s hs => ?_, fun i hi => ?_, h.numbered⟩ rfl rfl
  · rw [ht.superclass] at hs
    cases hs
    exact hsuper
  · exact hinterfaces i (ht.interfaces ▸ hi)

/-- So do the layers of a subtype. -/
theorem Typed.emitLayers (h : w.Typed) (e : Emitter) (label : String) {t : HostType} (parent : Loader)
    (ht : w.types.lookup? t.id = some t) (hasked : ∀ i ∈ interfaces ++ properties, i.index < w.types.length) :
    (w.emitLayers e label t interfaces properties parent).2.Typed := by
  obtain ⟨new, hadds, hnumbered⟩ := emitLayers_adds e label t interfaces properties parent w
  obtain ⟨hinterfaces, hproperties⟩ := List.forall_mem_append.1 hasked
  obtain ⟨arrays, issued, hrest⟩ := hadds.rest
  refine h.grown ?_ ?_ (by rw [hrest]) (by rw [hrest])
  · rw [hadds.types]
    exact List.suffix_append _ _
  · rw [hadds.types]
    exact hnumbered h.numbered h.start ht hinterfaces hproperties

section

variable (h : w.Typed) (hdeclared : ∀ i ∈ base :: (interfaces ++ properties), i.index < w.types.length)

include h hdeclared

/-- So does generating a subtype of types that are there, whether it succeeds or not. -/
theorem Typed.generate (e : Emitter) (parent : Loader) (d : Option DispatcherId) :
    (World.generate e base interfaces properties parent d w).2.Typed := by
  rcases generate_cases e base interfaces properties parent d w with hsame | ⟨t, w₁, hlookup, rfl, hleft⟩
  · rwa [hsame]
  obtain rfl : t.id = base := (TypeTable.mem_of_lookup? hlookup).2
  have hlayers : (w.emitLayers e (subtypeLoaderName t) t (dedupIds interfaces) properties parent).2.Typed :=
    h.emitLayers e _ parent hlookup fun i hi => hdeclared i (List.mem_cons_of_mem _ ?_)
  · rcases hleft with hsame | ⟨id, k, hinstall⟩
    · rwa [hsame]
    · rw [install] at hinstall
      split at hinstall
      · cases hinstall
      · rw [← Except.ok.inj hinstall]
        exact hlayers.of_rest rfl rfl hlayers.scripts
  · simpa only [List.mem_append, mem_dedupIds] using hi

end

/-- A registry changes platforms only. -/
theorem Typed.fromRegistry {p : PlatformId} {registry : Platform → Registry} {replace : Platform → Registry → Platform}
    {key : CacheKey} {create : World → Except PlatformError TypeId × World} (h : w.Typed)
    (hcreate : (create w).2.Typed) : (w.fromRegistry p registry replace key create).2.Typed := by
  rw [World.fromRegistry]
  rcases (registry (w.platform p)).getOrCreate_cases w.types.satisfies key create w with
    ⟨t, -, heq⟩ | ⟨t, w₁, n, hmade, heq⟩ | ⟨e, w₁, hmade, heq⟩
  all_goals rw [heq]
  · exact h.of_rest rfl rfl h.scripts
  all_goals
    rw [hmade] at hcreate
    exact hcreate.of_rest rfl rfl hcreate.scripts

/-- So do requests for subtypes of types that are there. -/
theorem Typed.createExtensionType (h : w.Typed) (p : PlatformId) (parent : Loader)
    (hdeclared : ∀ i ∈ base :: (interfaces ++ properties), i.index < w.types.length) :
    (w.createExtensionType p base interfaces properties parent).2.Typed := by
  rw [World.createExtensionType]
  split
  · exact h
  · exact h
  · exact h.fromRegistry (h.generate hdeclared _ parent _)

theorem Typed.buildType (h : w.Typed) (p : PlatformId) {r : ExtensionRequest}
    (hdeclared : ∀ i ∈ r.base :: (r.interfaces ++ r.properties), i.index < w.types.length) :
    (r.buildType p w).2.Typed := by
  rw [ExtensionRequest.buildType]
  split
  · exact h
  · exact h.fromRegistry (h.generate hdeclared _ r.loader none)

/-! ## Runs -/

/-- Whatever runs keeps objects typed. -/
theorem invariant_typed : World.Invariant World.Typed where
  rest _ _ _ _ _ h := h.of_rest rfl rfl h.scripts
  allocate cls := typed_allocate cls _
  setField o name v := typed_setField o name v _
  bind o id := typed_bind o id _
  boundTo o := typed_boundTo o _
  addInstance _ h := h.of_rest rfl rfl h.scripts
  setProperty id name v := typed_setProperty id name v _
  resolve p real op h := by
    rw [Runner.resolve_snd]
    exact h.of_rest rfl rfl h.scripts
  marked _ _ h := h.of_rest rfl rfl h.scripts
  request p n hn h := h.createExtensionType p .system (h.scripts n hn)

end World

/-- A request for an object with a dispatcher of the caller's keeps objects typed. -/
theorem ExtensionRequest.typed_build {w : World} {run : Runner} (hrun : run.Preserves World.Typed) (p : PlatformId)
    {r : ExtensionRequest} (hdeclared : ∀ i ∈ r.base :: (r.interfaces ++ r.properties), i.index < w.types.length) :
    Action.PreservesAt World.Typed w (r.build run p).run := by
  have hconstruct (proxy : TypeId) := PlatformAction.preserves_ofHost
    ((Runner.routine_construct proxy r.params r.args).preserves World.invariant_typed.toKeptAside hrun)
  refine PlatformAction.preservesAt_get_bind ?_
  dsimp only
  split
  · exact Action.Preserves.pure w
  split
  · exact Action.Preserves.pure w
  have hrequest : Action.PreservesAt World.Typed w (PlatformAction.ofWorld (r.buildType p)).run :=
    fun h => h.buildType p hdeclared
  refine PlatformAction.preservesAt_bind hrequest fun proxy => ?_
  refine fun w₁ => PlatformAction.preservesAt_get_bind ?_
  split
  · split
    · exact Action.Preserves.pure w₁
    · split
      · exact Action.Preserves.pure w₁
      · exact hconstruct proxy w₁
  · refine PlatformAction.preservesAt_lift_bind (fun h => h.of_rest rfl rfl h.scripts) fun _ after => ?_
    split
    · exact Action.Preserves.pure after
    · exact hconstruct proxy after

/-! ## Writes that are refused -/

namespace Action

variable {α β : Type} {x : Action α} {f : α → Action β}

/-- Whether a computation that fails leaves the world as it was. -/
def Atomic (x : Action α) : Prop := ∀ w e w', x w = (.error e, w') → w' = w

theorem Atomic.raise {e : HostError} : Atomic (raise e : Action α) := by
  intro w e w' h
  cases h
  rfl

/-- What changes nothing can come first. -/
theorem Atomic.bind (hx : x.Quiet) (hf : ∀ a, Atomic (f a)) : Atomic (x >>= f) := by
  intro w e w' h
  have hsame := hx w
  rw [bind_apply] at h
  rcases hrun : x w with ⟨_ | a, after⟩
  all_goals
    rw [hrun] at h hsame
    obtain rfl : after = w := hsame
  · cases h
    rfl
  · exact hf a _ _ _ h

/-- What succeeds can come last. -/
theorem Atomic.map (hx : Atomic x) {g : α → β} : Atomic (x >>= fun a => pure (g a)) := by
  intro w e w' h
  rw [bind_apply] at h
  rcases hrun : x w with ⟨e' | a, after⟩
  · rw [hrun] at h
    cases h
    exact hx w _ _ hrun
  · rw [hrun] at h
    cases h

end Action

open Interpose.Action (Atomic)

/-- A value that is not stored changes nothing. -/
theorem World.atomic_setField (o : ObjectRef) (name : String) (v : Value) : Atomic (setField o name v) := by
  intro w e w' h
  rw [setField_apply] at h
  split at h
  · cases h
    rfl
  · split at h
    · cases h
    · cases h
      rfl

theorem World.atomic_setProperty (id : InstanceId) (name : String) (v : Value) :
    Atomic (setProperty id name v) := by
  refine .bind .get fun w => ?_
  split
  · exact .raise
  · split
    · exact atomic_setField _ name v
    · intro w e w' h
      cases h

/-- An instruction that stores into a field changes nothing if it fails, at whatever it fails. -/
theorem CompiledBody.atomic_putField (unit : CompiledBody) (run : Runner) (f : Frame) (c : UInt16) :
    Atomic (unit.step run f (.putField c)) := by
  refine .bind (unit.quiet_fieldName c) fun name => .bind (unit.quiet_pop f) fun value =>
    .bind (unit.quiet_popObject value.2) fun receiver => ?_
  exact (World.atomic_setField receiver.1 name value.1).map

/-! ## Worlds that are reached -/

/-- The worlds that an embedding program can come to from the first one: by types that are declared, defined and
generated on types that are there, by objects that are allocated, written to and bound, by script objects that are
made and given properties, by whatever tasks are run and whatever bodies ask for, and by what changes neither types
nor objects and keeps no script type of types that are not there. -/
inductive World.Reachable : World → Prop
  | initial (options : PlatformOptions) : Reachable (.initial options)
  | declare {w : World} (h : Reachable w) (d : TypeDecl) (hsuper : ∀ s ∈ d.superclass, s.index < w.types.length)
      (hinterfaces : ∀ i ∈ d.interfaces, i.index < w.types.length) : Reachable (w.declare d).2
  | define {w w' : World} (h : Reachable w) {e : Emitter} {d : ClassDef} {loader : Loader} {id : TypeId}
      (hsuper : d.superclass.index < w.types.length) (hinterfaces : ∀ i ∈ d.interfaces, i.index < w.types.length)
      (hdefine : e.define w d loader = .ok (id, w')) : Reachable w'
  | emit {w : World} (h : Reachable w) (e : Emitter) (label : String) {base : HostType} {interfaces properties : List TypeId}
      (parent : Loader) (hbase : w.types.lookup? base.id = some base)
      (hasked : ∀ i ∈ interfaces ++ properties, i.index < w.types.length) :
      Reachable (w.emitLayers e label base interfaces properties parent).2
  | request {w : World} (h : Reachable w) (p : PlatformId) {base : TypeId} {interfaces properties : List TypeId}
      (parent : Loader) (hdeclared : ∀ i ∈ base :: (interfaces ++ properties), i.index < w.types.length) :
      Reachable (w.createExtensionType p base interfaces properties parent).2
  | extend {w : World} (h : Reachable w) (steps depth : Nat) (p : PlatformId) {script : ScriptType}
      (hscript : script.Declared w.types) (params : List ValueType) (args : List Value) :
      Reachable ((exec steps depth).extend p script params args w).2
  | create {w : World} (h : Reachable w) (steps depth : Nat) (p : PlatformId) (proxy : TypeId) (script : ScriptType)
      (params : List ValueType) (args : List Value) :
      Reachable ((exec steps depth).createInstance p proxy script params args w).2
  | build {w : World} (h : Reachable w) (steps depth : Nat) (p : PlatformId) {r : ExtensionRequest}
      (hdeclared : ∀ i ∈ r.base :: (r.interfaces ++ r.properties), i.index < w.types.length) :
      Reachable (r.build (exec steps depth) p w).2
  | allocate {w : World} (h : Reachable w) (cls : TypeId) : Reachable (World.allocate cls w).2
  | write {w : World} (h : Reachable w) (o : ObjectRef) (name : String) (v : Value) :
      Reachable (World.setField o name v w).2
  | property {w : World} (h : Reachable w) (id : InstanceId) (name : String) (v : Value) :
      Reachable (World.setProperty id name v w).2
  | bind {w : World} (h : Reachable w) (o : ObjectRef) (id : InstanceId) : Reachable (World.bind o id w).2
  | boundTo {w : World} (h : Reachable w) (o : ObjectRef) : Reachable (World.boundTo o w).2
  | perform {w : World} (h : Reachable w) (steps depth : Nat) (r : Request) :
      Reachable ((exec steps depth).perform r w).2
  | run {w : World} (h : Reachable w) (steps depth : Nat) (task : Task) : Reachable (exec steps depth task w).2
  | rest {w w' : World} (h : Reachable w) (htypes : w'.types = w.types) (hobjects : w'.objects = w.objects)
      (hscripts : ∀ n ∈ w'.names.scripts, n.2.Declared w'.types) : Reachable w'

namespace World

theorem typed_initial (options : PlatformOptions) : (World.initial options).Typed where
  numbered := ⟨rfl, nofun, nofun, rfl, nofun, nofun, trivial⟩
  start := List.suffix_rfl
  scripts := nofun
  objects i s hs := by
    cases hs

/-- In every world that is reached objects are typed. -/
theorem Reachable.typed {w : World} (h : w.Reachable) : w.Typed := by
  have hruns (steps depth : Nat) := Runner.preserves_exec invariant_typed steps depth
  induction h with
  | initial options => exact typed_initial options
  | declare _ d hsuper hinterfaces ih => exact ih.declare hsuper hinterfaces
  | define _ hsuper hinterfaces hdefine ih => exact ih.define hsuper hinterfaces hdefine
  | emit _ e label parent hbase hasked ih => exact ih.emitLayers e label parent hbase hasked
  | request _ p parent hdeclared ih => exact ih.createExtensionType p parent hdeclared
  | extend _ steps depth p hscript params args ih =>
      exact Runner.preservesAt_extend invariant_typed.toKeptAside (hruns steps depth)
        (fun h => h.createExtensionType p .system hscript) params args ih
  | create _ steps depth p proxy script params args ih =>
      exact Runner.preserves_createInstance invariant_typed.toKeptAside (hruns steps depth) p proxy script params args _ ih
  | build _ steps depth p hdeclared ih => exact ExtensionRequest.typed_build (hruns steps depth) p hdeclared ih
  | allocate _ cls ih => exact typed_allocate cls _ ih
  | write _ o name v ih => exact typed_setField o name v _ ih
  | property _ id name v ih => exact typed_setProperty id name v _ ih
  | bind _ o id ih => exact typed_bind o id _ ih
  | boundTo _ o ih => exact typed_boundTo o _ ih
  | perform _ steps depth r ih => exact Runner.preserves_perform invariant_typed (hruns steps depth) r _ ih
  | run _ steps depth task ih => exact hruns steps depth task _ ih
  | rest _ htypes hobjects hscripts ih => exact ih.of_rest htypes hobjects hscripts

/-- **Heap typing.** In every world that is reached, each object has one value for each field name that its class chain
declares, and for no other name, and each value is one that the type accepts of the declaration which the name stands
for; that value is what reading the field gives. A write that is refused leaves the world as it is, and so all objects:
by hand, through a property, by an instruction, by a body that asks for it, and by a generated setter. -/
theorem Reachable.heap_typed {w : World} (h : w.Reachable) :
    (∀ (i : Nat) s, w.objects[i]? = some s →
      (s.fields.map (·.1)).Nodup ∧
      (∀ name, name ∈ s.fields.map (·.1) ↔ ∃ f ∈ (w.types.lineage s.cls).flatMap (·.fields), f.name = name) ∧
      (∀ name v, (name, v) ∈ s.fields →
        (∃ f, w.types.findField? s.cls name = some f ∧ w.types.accepts f.type v = true) ∧
        getField ⟨i, s.cls⟩ name w = (.ok v, w))) ∧
    (∀ o name v, Atomic (setField o name v)) ∧ (∀ id name v, Atomic (setProperty id name v)) ∧
    (∀ (unit : CompiledBody) run f c, Atomic (unit.step run f (.putField c))) ∧
    (∀ (run : Runner) o name v, Atomic (run.perform (.setField o name v))) ∧
    (∀ (run : Runner) id name v, Atomic (run.perform (.setProperty id name v))) ∧
    ∀ {e : Emitter} {id : TypeId} {owner label : String} {p : PropertyPair} {d : MethodDef} {m : Method} {v : World}
      {o : ObjectRef} {steps : Nat}, Layer.propertySetter owner p = .ok d → e.method id label d = .ok m →
      p.setter.params.length = 1 → v.isDefined o id = true → 4 ≤ steps → ∀ (run : Runner) u e' v',
        run.runTask steps (.method m o [u]) v = (.error e', v') → v' = v := by
  refine ⟨fun i s hs => ?_, atomic_setField, atomic_setProperty, CompiledBody.atomic_putField,
    fun run o name v => (atomic_setField o name v).map, fun run id name v => (atomic_setProperty id name v).map,
    fun hd hmade hparams hdefined hsteps run u e' v' hrun => ?_⟩
  · have hobject := h.typed.objects i s hs
    refine ⟨hobject.nodup, fun name => ?_, fun name v hv => ⟨hobject.accepted name v hv, ?_⟩⟩
    · rw [hobject.names, TypeTable.mem_names_initialFields]
    · have hfields : w.fieldsOf ⟨i, s.cls⟩ = s.fields := by
        rw [fieldsOf]
        dsimp only
        rw [hs]
      rw [getField_apply, hfields, find?_of_nodup hobject.nodup hv]
  · rw [Emitter.runTask_propertySetter hd hmade hparams hdefined hsteps run] at hrun
    exact (atomic_setField _ _ u).map _ _ _ hrun

/-- A class with one field. -/
def flask (name : String) (superclass : TypeId) (level : ValueType) : TypeDecl :=
  ⟨name, .cls, .public, some superclass, [], [⟨"level", level, .public⟩], [], [], .system⟩

/-- A world with a class whose field is a number and a class below it whose field of the same name is a text. -/
def flaskWorld : World :=
  (((World.initial {}).declare (flask "Flask" .root (.primitive .int))).2.declare
    (flask "Labelled" ⟨2⟩ (.reference stringName))).2

/-- An object of the lower class has one value under the name, a text that was written over the default, and a number is
refused. -/
theorem Reachable.heap_typed_flask : ∃ w : World, w.Reachable ∧
    (∃ s, w.objects[0]? = some s ∧ s.fields = [("level", .str "full")] ∧ (s.fields.map (·.1)).Nodup) ∧
    ∃ e, setField ⟨0, ⟨3⟩⟩ "level" (.ofInt32 1) w = (.error e, w) := by
  have hflask : flaskWorld.Reachable := by
    refine .declare (.declare (.initial {}) _ (fun s hs => ?_) (List.forall_mem_nil _)) _ (fun s hs => ?_)
      (List.forall_mem_nil _)
    all_goals
      rw [← Option.some.inj hs]
      decide
  have hw := (hflask.allocate ⟨3⟩).write ⟨0, ⟨3⟩⟩ "level" (.str "full")
  obtain ⟨hobjects, hatomic, -⟩ := hw.heap_typed
  refine ⟨_, hw, ⟨⟨⟨3⟩, [("level", .str "full")], .unbound⟩, rfl, rfl, (hobjects 0 _ rfl).1⟩, ?_⟩
  have herror : (setField ⟨0, ⟨3⟩⟩ "level" (.ofInt32 1)
      (setField ⟨0, ⟨3⟩⟩ "level" (.str "full") (World.allocate ⟨3⟩ flaskWorld).2).2).1 =
        .error (.raised (flaskWorld.types.mismatch (ValueType.reference stringName).text (.ofInt32 1))) := rfl
  exact ⟨_, Prod.ext herror (hatomic _ _ _ _ _ _ (Prod.ext herror rfl))⟩

end World

end Interpose
