import Interpose.Machine.Exec
import Interpose.Proofs.HostSides
import Interpose.Proofs.Sparing

/-!
# Tables that last

Requests, definitions and calls leave each subtype an array with as many items as it lists operations. The items
are the numbers of the operations as long as the classes that are defined store into arrays of their own only, so
that each thunk goes on handing over the calls of its own operation. Verification does not see to that: verified
code of a class below a subtype can store into the array of the subtype.
-/

namespace Interpose

open Interpose.Action (Spares)

variable {A : Prop} {w : World}

/-! ## What is found is tame -/

/-- What a type has or inherits is tame. -/
theorem World.Guarded.tame_method (hw : w.Guarded A) {id : TypeId} {m : Method} (hm : m ∈ w.types.methodsOf id)
    (hA : A) : m.Tame := by
  obtain ⟨t, ht, hmem⟩ := TypeTable.exists_of_mem_methodsOf hm
  exact (hw.types hA t ht).methods m hmem

theorem World.Guarded.tame_constructor (hw : w.Guarded A) {id : TypeId} {params : List ValueType} {c : Constructor}
    (hc : (w.types.lookup? id).bind (·.findConstructor? params) = some c) (hA : A) : c.Tame := by
  obtain ⟨t, ht, hfound⟩ := Option.bind_eq_some_iff.1 hc
  exact (hw.types hA t (TypeTable.mem_of_lookup? ht).1).constructors c (List.mem_of_find?_eq_some hfound)

/-- Looking an accessor up finds what is tame, and remembers nothing else. -/
theorem AccessorCache.tame_resolve {types : TypeTable} {cache : AccessorCache} (real : TypeId) (op : Method)
    (htypes : ∀ t ∈ types, t.Tame) (hcache : ∀ x ∈ cache.entries, x.2.accessor.Tame) :
    (∀ x ∈ (resolve types real op cache).2.entries, x.2.accessor.Tame) ∧
      ∀ a, (resolve types real op cache).1 = .ok a → a.accessor.Tame := by
  rcases resolve_cases types real op cache with ⟨known, hknown, heq⟩ | ⟨e, -, heq⟩ | ⟨m, -, hfound, heq⟩
  all_goals rw [heq]
  · refine ⟨hcache, fun a ha => ?_⟩
    cases ha
    obtain ⟨x, hx, rfl⟩ := Option.map_eq_some_iff.1 hknown
    exact hcache x (List.mem_of_find?_eq_some hx)
  · exact ⟨hcache, nofun⟩
  · have hmem : m ∈ types.methodsOf real :=
      List.mem_append_left _ (List.mem_of_find?_eq_some (TypeTable.find?_of_findAccessor hfound))
    obtain ⟨t, ht, hmem⟩ := TypeTable.exists_of_mem_methodsOf hmem
    have hm : m.Tame := (htypes t ht).methods m hmem
    refine ⟨List.forall_mem_cons.2 ⟨hm, hcache⟩, fun a ha => ?_⟩
    cases ha
    exact hm

/-! ## Calls -/

namespace Runner

/-- The accessor that is looked up is tame. -/
theorem spares_resolve (p : PlatformId) (real : TypeId) (op : Method) :
    Action.Spares A w (resolve p real op) fun _ a => A → a.accessor.Tame := by
  intro hw
  have htame (hA : A) := AccessorCache.tame_resolve real op (hw.types hA) (hw.accessors hA p)
  rw [resolve_eq]
  generalize AccessorCache.resolve w.types real op (w.platform p).accessors = found at htame ⊢
  have hguarded : World.Guarded A (w.recalling p found.2) := by
    refine ⟨hw.table, hw.types, fun hA q => ?_⟩
    rw [World.accessors_recalling]
    split
    · exact (htame hA).1
    · exact hw.accessors hA q
  have honward : w.Onward A (w.recalling p found.2) := ⟨hguarded, fun _ hv => hv⟩
  obtain ⟨result, cache⟩ := found
  cases result with
  | error e => exact ⟨honward, nofun⟩
  | ok a =>
      refine ⟨honward, fun b hb hA => ?_⟩
      cases hb
      exact (htame hA).2 a rfl

section

variable {run : Runner} (hrun : run.Spares A)
include hrun

theorem spares_invoke (o : ObjectRef) (slot : Slot) (args : List Value) :
    Action.Spares A w (run.invoke o slot args) fun _ _ => True := by
  refine .of_get fun hw => ?_
  dsimp only
  cases hm : w.types.findVirtual? o.cls slot with
  | none => exact .halt
  | some m => exact hrun (.method m o args) (hw.tame_method (List.mem_of_find?_eq_some hm)) w

theorem spares_call (o : ObjectRef) (name : String) (args : List Value) :
    Action.Spares A w (run.call o name args) fun _ _ => True := by
  refine .of_get fun hw => ?_
  dsimp only
  cases hm : w.types.findMethodFor? o.cls name args with
  | none => exact .halt
  | some m =>
      have hmem : m ∈ w.types.methodsOf o.cls := by
        rcases Option.or_eq_some_iff.1 hm with hfind | ⟨-, hhead⟩
        · exact (List.mem_filter.1 (List.mem_of_find?_eq_some hfind)).1
        · exact (List.mem_filter.1 (List.mem_of_mem_head? hhead)).1
      exact hrun (.method m o args) (hw.tame_method hmem) w

theorem spares_construct (cls : TypeId) (params : List ValueType) (args : List Value) :
    Action.Spares A w (run.construct cls params args) fun _ _ => True := by
  refine .of_get fun hw => ?_
  dsimp only
  cases hc : (w.types.lookup? cls).bind (·.findConstructor? params) with
  | none => exact .halt
  | some c =>
      refine .bind (World.steady_allocate cls).spares fun o after _ _ => ?_
      exact .bind (hrun (.constructor c o args) (hw.tame_constructor hc) after) fun _ _ _ _ => .pure trivial

theorem spares_runAccessor {a : ResolvedAccessor} (ha : A → a.accessor.Tame) (this : ObjectRef)
    (args : List Value) : Action.Spares A w (run.runAccessor a this args) fun _ _ => True :=
  .bind .withTypes fun args after _ _ => hrun (.method a.accessor this args) ha after

theorem spares_overridden (p : PlatformId) (this : ObjectRef) (op : Method) (args : List Value) :
    Action.Spares A w (run.overridden p this op args) fun _ _ => True :=
  .bind (spares_resolve p this.cls op) fun _ _ _ ha => spares_runAccessor hrun ha this args

theorem spares_overriddenNamed (id : InstanceId) (name : String) (args : List Value) :
    Action.Spares A w (run.overriddenNamed id name args) fun _ _ => True := by
  refine .of_get fun _ => ?_
  cases w.instances[id.index]? with
  | none => exact .halt
  | some i =>
      dsimp only
      -- which operations are candidates makes no difference
      generalize ((((w.types.proxy? i.bridge.cls).map (·.operations)).getD []).filter fun m =>
        m.name == name && m.params.length == args.length) = candidates
      cases (candidates.find? fun m => w.types.acceptsArgs m.params args).or candidates.head? with
      | none => exact .halt
      | some op => exact spares_overridden hrun _ _ _ _

theorem spares_callOverload (p : PlatformId) (bridge : ObjectRef) (source : Method) (args : List Value) :
    Action.Spares A w (run.callOverload p bridge source args) fun _ _ => True := by
  refine .bind (spares_resolve p bridge.cls source).outcome fun found after _ hfound => ?_
  cases found with
  | ok a => exact spares_runAccessor hrun (hfound a rfl) bridge args
  | error e => exact .bind .withTypes fun args after _ _ => spares_invoke hrun bridge source.slot args

theorem spares_route (p : PlatformId) (id : InstanceId) (op : Method) (args : List Value) :
    Action.Spares A w (run.route p id op args) fun _ _ => True := by
  refine .of_get fun _ => ?_
  cases w.instances[id.index]? with
  | none => exact .halt
  | some i =>
      dsimp only
      split
      · exact .pure trivial
      refine .holding fun w => ?_
      cases i.script.resolve? _ op.name (args.map (·.unboxed)) with
      | none => exact .halt
      | some f =>
          cases f with
          | scripted name arity body =>
              refine .bind (hrun (.function _ id _) (fun _ => trivial) w) fun result after _ _ => ?_
              split
              · exact .pure trivial
              · exact .withTypes
          | imported source =>
              dsimp only
              split
              · exact .halt
              · split
                · exact spares_overridden hrun p i.bridge op args
                · exact spares_callOverload hrun p i.bridge source args

theorem spares_dispatchRouted (p : PlatformId) (this : ObjectRef) (operation : Nat) (args : List Value) :
    Action.Spares A w (run.dispatchRouted p this operation args) fun _ _ => True := by
  refine .bind (quiet_operationAt this operation).spares fun op after _ _ => .of_get fun _ => ?_
  dsimp only
  split
  · exact .bind (spares_overridden hrun p this op args) fun _ _ _ _ => .pure trivial
  · refine .bind (.holding fun _ => (World.steady_boundTo this).spares) fun found after _ _ => ?_
    cases found with
    | none => exact .bind (spares_overridden hrun p this op args) fun _ _ _ _ => .pure trivial
    | some id =>
        exact .bind (.holding fun _ => spares_route hrun p id op args) fun _ _ _ _ => .pure trivial

end

end Runner

/-! ## Construction -/

namespace PlatformAction

variable {α β : Type}

/-- A computation that answers a request, and then another one. -/
theorem spares_bind {x : PlatformAction α} {f : α → PlatformAction β} (hx : Spares A w x.run fun _ _ => True)
    (hf : ∀ a after, Spares A after (f a).run fun _ _ => True) : Spares A w (x >>= f).run fun _ _ => True := by
  refine Spares.bind hx fun r after _ _ => ?_
  cases r with
  | ok a => exact hf a after
  | error e => exact .pure trivial

/-- A computation on the world, and then one that answers a request. -/
theorem spares_lift_bind {Q : World → α → Prop} {x : Action α} {f : α → PlatformAction β} (hx : Spares A w x Q)
    (hf : ∀ a after, Spares A after (f a).run fun _ _ => True) :
    Spares A w (liftM x >>= f : PlatformAction β).run fun _ _ => True := by
  rw [run_lift_bind]
  exact hx.bind fun a after _ _ => hf a after

/-- A computation that looks at the world first. -/
theorem spares_get_bind {f : World → PlatformAction β} (h : w.Guarded A → Spares A w (f w).run fun _ _ => True) :
    Spares A w (liftM (get : Action World) >>= f : PlatformAction β).run fun _ _ => True := by
  rw [run_lift_bind]
  exact .of_get h

/-- A change of the world that may fail. -/
theorem spares_ofWorld {f : World → Except PlatformError α × World} (h : w.Guarded A → w.Onward A (f w).2) :
    Spares A w (ofWorld f).run fun _ _ => True :=
  fun hw => ⟨h hw, fun _ _ => trivial⟩

/-- A computation of the host. -/
theorem spares_ofHost {x : Action α} (hx : Spares A w x fun _ _ => True) :
    Spares A w (ofHost x).run fun _ _ => True := by
  refine spares_lift_bind hx.outcome fun r after => ?_
  cases r with
  | ok a => exact .pure trivial
  | error e => exact .pure trivial

end PlatformAction

namespace World

/-- Marking an object as under construction is steady. -/
theorem steady_marked (w : World) (p : PlatformId) (mark : Option ObjectRef) : w.Steady (w.marked p mark) where
  types := rfl
  arrays := .refl w
  accessors q := by
    rw [marked, platform_modify]
    split <;> rfl

/-- What is computed with an object marked leads on. -/
theorem spares_constructing {α : Type} {p : PlatformId} {o : ObjectRef} {x : PlatformAction α}
    (h : ∀ w, Spares A w x.run fun _ _ => True) : Spares A w (constructing p o x).run fun _ _ => True := by
  intro hw
  have hmarked := (w.steady_marked p (some o)).onward hw
  have honward := (h _ hmarked.guarded).1
  have hback := (steady_marked (x (w.marked p (some o))).2 p (w.platform p).constructing).onward honward.guarded
  exact ⟨(hmarked.trans honward).trans hback, fun _ _ => trivial⟩

end World

namespace Runner

section

variable {run : Runner} (hrun : run.Spares A)
include hrun

/-- Making a script object leads on. -/
theorem spares_createInstance (p : PlatformId) (proxy : TypeId) (script : ScriptType) (params : List ValueType)
    (args : List Value) :
    Action.Spares A w (run.createInstance p proxy script params args).run fun _ _ => True := by
  refine PlatformAction.spares_get_bind fun hw => ?_
  dsimp only
  split
  · exact .pure trivial
  cases hc : (w.types.lookup? proxy).bind (·.findConstructor? params) with
  | none => exact .pure trivial
  | some c =>
      refine PlatformAction.spares_bind (PlatformAction.spares_ofHost (World.steady_allocate proxy).spares)
        fun bridge after => World.spares_constructing fun w => ?_
      have hconstructor := hrun (.constructor c bridge args) (hw.tame_constructor hc) w
      refine PlatformAction.spares_lift_bind hconstructor.outcome fun r after => ?_
      cases r with
      | error e => exact .pure trivial
      | ok v =>
          refine PlatformAction.spares_get_bind fun _ => ?_
          refine PlatformAction.spares_lift_bind (World.steady_addInstance _).spares fun id after => ?_
          refine PlatformAction.spares_lift_bind (World.steady_bind bridge id).spares fun isBound after => ?_
          cases isBound with
          | true => exact .pure trivial
          | false => exact .pure trivial

theorem spares_extend (p : PlatformId) (script : ScriptType) (params : List ValueType) (args : List Value) :
    Action.Spares A w (run.extend p script params args).run fun _ _ => True := by
  refine PlatformAction.spares_bind (PlatformAction.spares_ofWorld ?_) fun proxy after =>
    spares_createInstance hrun p proxy script params args
  exact fun hw => (World.keptByLayers_onward A w).createExtensionType p _ _ _ _ (.refl hw)

/-- So does making an object of a subtype for a dispatcher of the caller's. -/
theorem spares_build (r : ExtensionRequest) (p : PlatformId) :
    Action.Spares A w (r.build run p).run fun _ _ => True := by
  refine PlatformAction.spares_get_bind fun _ => ?_
  dsimp only
  split
  · exact .pure trivial
  split
  · exact .pure trivial
  refine PlatformAction.spares_bind (PlatformAction.spares_ofWorld fun hw => ?_) fun proxy after => ?_
  · exact (World.keptByLayers_onward A w).buildType r p (.refl hw)
  refine PlatformAction.spares_get_bind fun _ => ?_
  split
  · split
    · exact .pure trivial
    · split
      · exact .pure trivial
      · exact PlatformAction.spares_ofHost (spares_construct hrun proxy r.params r.args)
  · refine PlatformAction.spares_lift_bind (Action.SteadyAt.spares (.of_rest rfl rfl rfl)) fun _ after => ?_
    split
    · exact .pure trivial
    · exact PlatformAction.spares_ofHost (spares_construct hrun proxy r.params r.args)

/-! ## Programs and tasks -/

/-- What a body asks for leads on. -/
theorem spares_perform (r : Request) : Action.Spares A w (run.perform r) fun _ _ => True := by
  cases r
  case evaluate l => exact (World.steady_evaluate l).spares
  case newArray items => exact (World.steady_newArray _).spares
  case log text => exact .bind (World.steady_report text).spares fun _ _ _ _ => .pure trivial
  case getField o name => exact (World.quiet_getField o name).spares
  case setField o name v => exact .bind (World.steady_setField o name v).spares fun _ _ _ _ => .pure trivial
  case call o name args => exact spares_call hrun o name args
  case invoke o slot args => exact spares_invoke hrun o slot args
  case construct type params args =>
    refine .bind (World.quiet_keptType type).spares fun id _ _ _ => ?_
    exact .bind (spares_construct hrun id params args) fun _ _ _ _ => .pure trivial
  case getProperty i name => exact (World.quiet_getProperty i name).spares
  case setProperty i name v =>
    exact .bind (World.steady_setProperty i name v).spares fun _ _ _ _ => .pure trivial
  case overridden i name args => exact spares_overriddenNamed hrun i name args
  case overriddenAt o operation args =>
    refine .of_get fun _ => .bind (quiet_operationAt o operation).spares fun op _ _ _ => ?_
    exact spares_overridden hrun _ o op args
  case typeName v => exact .of_get fun _ => .pure trivial
  case isConstructing o => exact .of_get fun _ => .pure trivial
  case isActive => exact .of_get fun _ => .pure trivial
  case isBound o => exact .of_get fun _ => .pure trivial
  case bind o name =>
    refine .bind (World.quiet_kept _ _ _).spares fun id _ _ _ => ?_
    exact .bind (World.steady_bind o id).spares fun _ _ _ _ => .pure trivial
  case extend script name =>
    refine .bind (World.quiet_kept _ _ _).spares fun s _ _ _ => .of_get fun _ => ?_
    refine .bind (spares_extend hrun _ s [] []) fun answer after _ _ => ?_
    cases answer with
    | error e => exact .halt
    | ok id =>
        refine .bind (World.steady_keepInstance name id).spares fun _ _ _ _ => .of_get fun w => ?_
        split <;> exact .pure trivial

/-- A program leads on, whatever it asks for. -/
theorem spares_program (b : Program) : Action.Spares A w (run.program b) fun _ _ => True := by
  induction b generalizing w with
  | done v => exact .pure trivial
  | fail e => exact .halt
  | ask held r next ih =>
      refine .bind (Action.Spares.outcome (.holding fun w => spares_perform hrun r)) fun answer after _ _ => ?_
      exact ih answer

/-- So does a task that is tame. -/
theorem spares_runTask (steps : Nat) (task : Task) (htask : A → task.Tame) :
    Action.Spares A w (run.runTask steps task) fun _ _ => True := by
  cases task with
  | method m this args =>
      refine .bind (quiet_checkCount m.text m.params args).spares fun _ after _ _ => ?_
      cases hbody : m.body with
      | abstract => exact .halt
      | native body => exact spares_program hrun _
      | compiled unit => exact unit.spares_run (fun hA => htask hA unit hbody) hrun steps this args
  | constructor c this args =>
      refine .bind (quiet_checkCount c.text c.params args).spares fun _ after _ _ => ?_
      cases hbody : c.body with
      | native body => exact .bind (spares_program hrun _) fun _ _ _ _ => .pure trivial
      | inherited parent =>
          cases parent with
          | none => exact .pure trivial
          | some parent =>
              exact hrun (.constructor parent this []) (fun hA => (htask hA).of_inherited hbody) after
      | compiled unit =>
          have hunit (hA : A) : unit.Tame := htask hA unit (.compiled hbody)
          exact .bind (unit.spares_run hunit hrun steps this args) fun _ _ _ _ => .pure trivial
  | dispatch d this operation args =>
      refine .of_get fun _ => ?_
      cases w.dispatchers[d.index]? with
      | none => exact .halt
      | some dispatcher =>
          cases dispatcher with
          | routing p => exact spares_dispatchRouted hrun p this operation args
          | custom body => exact .holding fun _ => spares_program hrun _
  | function f id args =>
      cases f with
      | imported source => exact .halt
      | scripted name arity body =>
          refine .of_get fun _ => ?_
          cases w.instances[id.index]? with
          | none => exact .halt
          | some i =>
              refine .bind (spares_program hrun _).outcome fun answer after _ _ => ?_
              cases answer with
              | ok v => exact .pure trivial
              | error e => exact .halt

end

end Runner

/-- Tasks lead on, however deep their calls nest. -/
theorem spares_exec (A : Prop) (steps depth : Nat) : (exec steps depth).Spares A := by
  induction depth with
  | zero => exact fun _ _ _ => .halt
  | succ depth ih => exact fun task htask w => .holding fun _ => Runner.spares_runTask ih steps task htask

/-! ## Worlds that are reached -/

/-- Whether what a task runs is declared by a type. -/
def Task.Among (types : TypeTable) : Task → Prop
  | .method m _ _ => ∃ t ∈ types, m ∈ t.methods
  | .constructor c _ _ => ∃ t ∈ types, c ∈ t.constructors
  | .dispatch _ _ _ _ => True
  | .function _ _ _ => True

/-- The worlds that come from the first one by declarations, by definitions of classes whose code has a property, by
requests, by calls, and by whatever changes neither types nor arrays that are there. -/
inductive World.Reached (P : TypeTable → Code → Prop) : World → Prop
  | initial (options : PlatformOptions) : Reached P (.initial options)
  | declare {w : World} (h : Reached P w) (d : TypeDecl) : Reached P (w.declare d).2
  | define {w w' : World} {e : Emitter} {d : ClassDef} {loader : Loader} {id : TypeId} (h : Reached P w)
      (hcodes : ∀ c ∈ d.codes, P w.types c) (hdefine : e.define w d loader = .ok (id, w')) : Reached P w'
  | request {w : World} (h : Reached P w) (p : PlatformId) (base : TypeId) (interfaces properties : List TypeId)
      (parent : Loader) : Reached P (w.createExtensionType p base interfaces properties parent).2
  | extend {w : World} (h : Reached P w) (steps depth : Nat) (p : PlatformId) (script : ScriptType)
      (params : List ValueType) (args : List Value) :
      Reached P ((exec steps depth).extend p script params args w).2
  | create {w : World} (h : Reached P w) (steps depth : Nat) (p : PlatformId) (proxy : TypeId)
      (script : ScriptType) (params : List ValueType) (args : List Value) :
      Reached P ((exec steps depth).createInstance p proxy script params args w).2
  | build {w : World} (h : Reached P w) (steps depth : Nat) (r : ExtensionRequest) (p : PlatformId) :
      Reached P (r.build (exec steps depth) p w).2
  | perform {w : World} (h : Reached P w) (steps depth : Nat) (r : Request) :
      Reached P ((exec steps depth).perform r w).2
  | run {w : World} (h : Reached P w) (steps depth : Nat) {task : Task} (htask : task.Among w.types) :
      Reached P (exec steps depth task w).2
  | steady {w w' : World} (h : Reached P w) (hsteady : w.Steady w') : Reached P w'

namespace World

/-- The first world is guarded, since its types list no operations and have no generated bodies. -/
theorem guarded_initial (A : Prop) (options : PlatformOptions) : (World.initial options).Guarded A := by
  have hempty : World.Guarded A { World.initial options with types := [] } := by
    refine ⟨fun t ht => ?_, fun _ t ht => ?_, fun _ p x hx => ?_⟩
    · cases ht
    · cases ht
    · obtain ⟨_ | k⟩ := p
      · cases hx
      · cases hx
  have hroot := hempty.declare TypeDecl.root
  exact (hroot.guarded.declare TypeDecl.capability).guarded

/-- What is declared by types of a guarded world is tame. -/
theorem Guarded.tame_task (hw : w.Guarded A) {task : Task} (h : task.Among w.types) (hA : A) : task.Tame := by
  cases task with
  | method m this args =>
      obtain ⟨t, ht, hm⟩ := h
      exact (hw.types hA t ht).methods m hm
  | constructor c this args =>
      obtain ⟨t, ht, hc⟩ := h
      exact (hw.types hA t ht).constructors c hc
  | dispatch d this operation args => trivial
  | function f id args => trivial

variable {P : TypeTable → Code → Prop}

/-- Every world that is reached is guarded. It has the numbers of operations in its arrays if all code that was
defined was careful. -/
theorem Reached.guarded (h : w.Reached P) : w.Guarded (∀ types c, P types c → c.Careful types) := by
  induction h with
  | initial options => exact guarded_initial _ options
  | declare _ d ih => exact (ih.declare d).guarded
  | define _ hcodes hdefine ih =>
      exact (ih.define hdefine fun hcareful c hc => hcareful _ c (hcodes c hc)).guarded
  | request _ p base interfaces properties parent ih =>
      exact ((keptByLayers_onward _ _).createExtensionType p base interfaces properties parent (.refl ih)).guarded
  | extend _ steps depth p script params args ih =>
      exact (Runner.spares_extend (spares_exec _ steps depth) p script params args ih).1.guarded
  | create _ steps depth p proxy script params args ih =>
      exact (Runner.spares_createInstance (spares_exec _ steps depth) p proxy script params args ih).1.guarded
  | build _ steps depth r p ih =>
      exact (Runner.spares_build (spares_exec _ steps depth) r p ih).1.guarded
  | perform _ steps depth r ih => exact (Runner.spares_perform (spares_exec _ steps depth) r ih).1.guarded
  | run _ steps depth htask ih => exact (spares_exec _ steps depth _ (ih.tame_task htask) _ ih).1.guarded
  | steady _ hsteady ih => exact (hsteady.onward ih).guarded

/-- Whether the calls of an operation on objects of a type are handed to the dispatcher of the type, with a number
and the boxed arguments. -/
def HandsOver (w : World) (t : HostType) (thunk op : Method) (i : Nat) : Prop :=
  ∀ (run : Runner) (steps : Nat) (this : ObjectRef) (args : List Value) (d : DispatcherId),
    6 * op.params.length + 16 ≤ steps → (∃ s ∈ w.types.lineage this.cls, s.id = t.id) →
    List.Forall₂ (fun t v => w.types.accepts t v = true) op.params args → w.dispatcherOf? t.id = some d →
    run.runTask steps (.method thunk this args) w =
      holding [.type t.id] (Layer.handedOver run op d i this args) w

/-- **Tables.** In every world that is reached, a generated type has an array with as many items as it lists
operations. If all code of the classes that were defined is careful, and so stores into arrays of its own only,
the items are the numbers of the operations in order, and each thunk of a proxy hands its calls over with the number
of the operation that it was generated for. -/
theorem Reached.tables_last (h : w.Reached P) {id : TypeId} {t : HostType} {g : Generation}
    (ht : w.types.lookup? id = some t) (hg : t.generated = some g) :
    ∃ items, w.arrays[g.table.index]? = some items ∧ items.size = g.operations.length ∧
      ((∀ types c, P types c → c.Careful types) →
        (∀ i, i < g.operations.length → items[i]? = some (.operation i)) ∧
        ∀ {e : Emitter} {w₀ : World} {bridge base : HostType} {operations : List Method} {requested : List TypeId},
          e.Proxy w₀ bridge base operations requested t → ∀ i op, operations[i]? = some op → i < 0x80000000 →
          ∃ thunk, t.methods[2 * i]? = some thunk ∧ thunk.slot = op.slot ∧ w.HandsOver t thunk op i) := by
  obtain ⟨hmem, hid⟩ := TypeTable.mem_of_lookup? ht
  obtain ⟨items, hitems, hsize, hcontents⟩ := h.guarded.table t hmem g hg
  refine ⟨items, hitems, hsize, fun hcareful => ?_⟩
  obtain rfl := hcontents hcareful
  refine ⟨fun i hi => ?_, fun {e w₀ bridge base operations requested} hproxy i op hop hsmall => ?_⟩
  · rw [Array.getElem?_map, Array.getElem?_range, if_pos hi]
    rfl
  · cases hg.symm.trans hproxy.generated
    obtain ⟨thunk, code, hthunk, hslot, -, hcode, hrun⟩ := hproxy.runTask_thunk hop
    refine ⟨thunk, hthunk, hslot, fun run steps this args d hsteps hbelow haccepts hd => ?_⟩
    have hsize := Nat.le_trans (Layer.size_thunk_le hcode) hsteps
    rw [hrun run steps this args w hsize (hid.symm ▸ ht) hbelow hitems haccepts]
    refine Action.holding_congr ?_
    rw [← Layer.dispatched_of_lt hsmall]
    exact Layer.thunkMeaning_of_some hd

end World

/-! ## A class below a subtype whose code stores -/

/-- The class with two operations, as it is declared. -/
def valveDecl : TypeDecl where
  name := "Gauge"
  kind := .cls
  modifiers := .public
  superclass := some .root
  interfaces := []
  fields := []
  methods := [⟨"open", [], .reference stringName, .public, some fun _ _ => .done (.str "host opens")⟩,
    ⟨"shut", [], .reference stringName, .public, some fun _ _ => .done (.str "host shuts")⟩]
  ctors := []
  loader := .system

/-- The type that is declared by it. -/
def valveType : HostType :=
  { valve with
    constructors := [⟨[], .public, "Gauge", .inherited (some ⟨[], .public, objectName, .inherited none⟩)⟩] }

/-- The world in which it is declared, whose platform does not verify what it generates. -/
def declaredValve : World := ((World.initial { verifyCode := false }).declare valveDecl).2

/-- Code that fills an array of its own. -/
def fillCode : Code where
  name := "fill"
  arity := 1
  locals := 1
  instrs := #[.const 0, .newArray, .const 1, .const 1, .arrayStore, .retVoid]
  constants := #[.int 1, .int 0]

/-- It stores into nothing but that array. -/
theorem fillCode.careful (types : TypeTable) : fillCode.Careful types where
  stores := by
    apply Code.Guards.storesOwn
    iterate 4 refine .of_plain rfl rfl (List.forall_mem_singleton.2 ?_)
    -- the array that was made is below the index and the item
    refine .of_instr rfl (fun _ => rfl) (List.forall_mem_singleton.2 ?_)
    exact .of_plain rfl rfl (List.forall_mem_nil _)
  short := .inl (by decide)
  constants := by
    intro k hk
    obtain rfl | rfl : k = .int 1 ∨ k = .int 0 := by simpa [fillCode] using hk
    · trivial
    · trivial

/-- A class below the subtype with an operation that has this code. -/
def classOf (code : Code) : ClassDef :=
  ⟨"Breaker", .public, ⟨4⟩, [], [], [], [⟨code.name, [], .void, .public, code⟩], none⟩

/-- Defines the class with a back-end that verifies, and calls the operation on an object of it. -/
def runBelow (code : Code) : Action Value := do
  match (⟨.weave, true⟩ : Emitter).define (← get) (classOf code) .system with
  | .error _ => return .null
  | .ok (id, w) =>
    set w
    let o ← World.allocate id
    (exec 30 6).perform (.invoke o ⟨code.name, .void, []⟩ [])

/-- A world stays one that is reached when this is done. -/
theorem World.Reached.runBelow {P : TypeTable → Code → Prop} (h : w.Reached P) {code : Code}
    (hcode : P w.types code) : (runBelow code w).2.Reached P := by
  rw [Interpose.runBelow, Action.bind_apply_ok (Action.get_apply w)]
  cases hdefine : (⟨.weave, true⟩ : Emitter).define w (classOf code) .system with
  | error e => exact h
  | ok defined =>
      obtain ⟨id, w₁⟩ := defined
      have hcodes : ∀ c ∈ (classOf code).codes, P w.types c := by
        intro c hc
        obtain rfl := List.mem_singleton.1 hc
        exact hcode
      have h₁ := h.define hcodes hdefine
      have h₂ := h₁.steady (World.steady_allocate id w₁)
      change ((World.allocate id >>= fun o => _) w₁).2.Reached P
      rw [Action.bind_apply]
      rcases hnew : World.allocate id w₁ with ⟨_ | o, w₂⟩
      all_goals rw [hnew] at h₂
      · exact h₂
      · exact h₂.perform 30 6 _

/-- The slots that the subtype of the class lists, and what its array has. -/
def World.valveTable (w : World) : Option (List Slot × Option (Array Value)) :=
  ((w.types.lookup? ⟨4⟩).bind (·.generated)).map fun g => (g.operations.map (·.slot), w.arrays[g.table.index]?)

/-- The world in which a platform remembers that the subtype answers a request for one of the class. -/
def World.answering (w : World) : World :=
  w.remembering .first (Registry.generated {} (CacheKey.of valveType.id [] [] .system) ⟨4⟩)

/-- Whether both kinds of code run below the subtype, and the array is as each of them leaves it. -/
def World.Wears (w : World) : Prop :=
  (runBelow fillCode w.answering).1 = .ok .void ∧
  (runBelow fillCode w.answering).2.valveTable.map (·.1) =
    some [capabilitySlot, valveOpen.slot, valveShut.slot] ∧
  (runBelow overwriteCode w.answering).1 = .ok .void ∧
  (runBelow overwriteCode w.answering).2.valveTable = some ([capabilitySlot, valveOpen.slot, valveShut.slot],
    some #[.operation 0, .operation 2, .operation 2]) ∧
  ((World.allocate ⟨4⟩ >>= fun o => (exec 30 6).invoke o valveOpen.slot [])
    (runBelow overwriteCode w.answering).2).1 = .ok (.str "host shuts")

instance : DecidablePred World.Wears := fun _ => inferInstanceAs (Decidable (_ ∧ _))

/-- So it is once a platform was asked for a subtype of the class. -/
theorem exists_wears : ∃ w : World, w.Wears ∧
    (declaredValve.createExtensionType .first valveType.id [] [] .system).2 = w.answering := by
  have hgenerate : ∃ w : World, World.generate (declaredValve.emitter .first) valveType.id [] [] .system
      (some (declaredValve.platform .first).dispatcher) declaredValve = (.ok ⟨4⟩, w) ∧ w.Wears := by
    apply World.exists_generate (P := World.Wears)
    · rfl
    · rfl
    · rw [TypeTable.harvestAbstract, TypeTable.harvest, TypeTable.interfaceList, TypeTable.extendFound]
      rfl
    · rfl
    · exact TypeTable.harvest_singleton rfl rfl rfl
    · apply exists_eq_ok_of_decide (P := fun w : World => World.Wears { w with installed := _ })
      decide +kernel
    · rfl
  obtain ⟨w, hw, h⟩ := hgenerate
  refine ⟨w, h, ?_⟩
  rw [World.createExtensionType_apply_of_generate rfl rfl rfl hw]
  rfl

/-- The world in which the subtype was asked for is reached, whatever code may be defined. -/
theorem reached_answering {P : TypeTable → Code → Prop}
    (h : (declaredValve.createExtensionType .first valveType.id [] [] .system).2 = w.answering) :
    w.answering.Reached P := by
  rw [← h]
  exact ((World.Reached.initial _).declare valveDecl).request .first valveType.id [] [] .system

/-- What the subtype lists, and what its array has, belong to a type that is there. -/
theorem World.exists_of_valveTable {slots : List Slot} (h : w.valveTable.map (·.1) = some slots) :
    ∃ t g, w.types.lookup? ⟨4⟩ = some t ∧ t.generated = some g ∧ g.operations.map (·.slot) = slots ∧
      w.valveTable = some (slots, w.arrays[g.table.index]?) := by
  rw [valveTable, Option.map_map, Option.map_eq_some_iff] at h
  obtain ⟨g, hg, rfl⟩ := h
  obtain ⟨t, ht, hg'⟩ := Option.bind_eq_some_iff.1 hg
  refine ⟨t, g, ht, hg', rfl, ?_⟩
  rw [valveTable, hg]
  rfl

/-- Code below the subtype that fills an array of its own leaves the numbers as they were. -/
theorem World.Reached.tables_last_filled : ∃ (w : World) (t : HostType) (g : Generation),
    w.Reached (fun types c => c.Careful types) ∧ w.types.lookup? ⟨4⟩ = some t ∧ t.generated = some g ∧
      g.operations.map (·.slot) = [capabilitySlot, valveOpen.slot, valveShut.slot] ∧
      ∃ items, w.arrays[g.table.index]? = some items ∧ items.size = 3 ∧ items[1]? = some (.operation 1) := by
  obtain ⟨w, ⟨-, hfilled, -⟩, hasked⟩ := exists_wears
  obtain ⟨t, g, ht, hg, hslots, -⟩ := World.exists_of_valveTable hfilled
  have hreached : (Interpose.runBelow fillCode w.answering).2.Reached fun types c => c.Careful types :=
    (reached_answering hasked).runBelow (fillCode.careful _)
  obtain ⟨items, hitems, hsize, hcontents⟩ := hreached.tables_last ht hg
  have hlength : g.operations.length = 3 := by
    rw [← List.length_map (fun op : Method => op.slot), hslots]
    rfl
  obtain ⟨hnumbers, -⟩ := hcontents fun _ _ h => h
  refine ⟨_, t, g, hreached, ht, hg, hslots, items, hitems, hsize.trans hlength, hnumbers 1 ?_⟩
  rw [hlength]
  decide

/-- Verified code below the subtype puts the number of one operation in the place of that of another one, whose
calls are then those of the first. -/
theorem World.Reached.tables_last_differs : ∃ (w : World) (t : HostType) (g : Generation),
    w.Reached (fun _ c => ∃ depth, c.verify = .ok depth) ∧ w.types.lookup? ⟨4⟩ = some t ∧
      t.generated = some g ∧ g.operations.map (·.slot) = [capabilitySlot, valveOpen.slot, valveShut.slot] ∧
      w.arrays[g.table.index]? = some #[.operation 0, .operation 2, .operation 2] ∧
      ((World.allocate ⟨4⟩ >>= fun o => (exec 30 6).invoke o valveOpen.slot []) w).1 =
        .ok (.str "host shuts") := by
  obtain ⟨w, ⟨-, -, -, htable, hshuts⟩, hasked⟩ := exists_wears
  obtain ⟨t, g, ht, hg, hslots, harray⟩ := World.exists_of_valveTable (congrArg (Option.map (·.1)) htable)
  have hreached : (Interpose.runBelow overwriteCode w.answering).2.Reached
      fun _ c => ∃ depth, c.verify = .ok depth :=
    (reached_answering hasked).runBelow ⟨4, by decide +kernel⟩
  rw [htable] at harray
  exact ⟨_, t, g, hreached, ht, hg, hslots, (Prod.mk.inj (Option.some.inj harray)).2.symm, hshuts⟩

end Interpose
