import Interpose.Proofs.Bypassing
import Interpose.Proofs.Extensions
import Interpose.Proofs.Granting
import Interpose.Proofs.Paths

/-!
# Constructors that are forwarded

Each layer of a subtype has a constructor for each that can be reached of what the layer extends: it has the same
parameters and the same modifiers, and hands the receiver and the arguments on. So the constructors of the proxy
stand, one by one, for those of what the bridge extends, and making a script object comes to one run of the one that
is named by its parameters.
-/

namespace Interpose

open Interpose.Action (ComesTo)
open CodeBuilder (Continues)

/-! ## Code that forwards -/

/-- What verified code loads is among its locals. -/
theorem Code.Sound.lt_locals_of_loads {code : Code} {b : CodeBuilder} {l : List Nat} {depth : Nat} (h : code.Sound)
    (hwithin : (l.foldl (fun b i => b.load (UInt16.ofNat i)) b).Within code)
    (hvisits : code.Visits b.instrs.size depth) : ∀ i ∈ l, UInt16.ofNat i < code.locals := by
  induction l generalizing b depth with
  | nil => nofun
  | cons i l ih =>
      have hi : code.instrs[b.instrs.size]? = some (.load (UInt16.ofNat i)) :=
        (hwithin.of_continues ((Continues.refl _).loads l)).emitted rfl
      obtain ⟨_, _, hi', hrefers, -⟩ := h.executes _ _ hvisits
      cases hi.symm.trans hi'
      have hlt : UInt16.ofNat i < code.locals := hrefers.local_lt _ rfl
      have hnext : code.Visits (b.load (UInt16.ofNat i)).instrs.size (depth + 1) := by
        rw [CodeBuilder.load, CodeBuilder.size_emit]
        have heffect : code.stackEffect (.load (UInt16.ofNat i)) = .ok ⟨0, 1⟩ := if_pos hlt
        exact hvisits.step hi (Code.Leads.depthAfter_eq heffect depth) (List.mem_singleton_self _)
      exact List.forall_mem_cons.2 ⟨hlt, ih hwithin hnext⟩

namespace Layer

variable {owner : String} {c : Constructor} {d : CtorDef} {unit : CompiledBody} {id : TypeId} {code : Code}
  {place : Nat → Nat} {b : CodeBuilder} {this : ObjectRef} {args : List Value} {w : World}

theorem forwardingCtor_eq_ok (h : forwardingCtor owner c = .ok d) :
    (forwardingBuilder owner c).Within d.code ∧ d.code.instrs.size = c.params.length + 3 ∧
    d.code.locals = UInt16.ofNat (c.params.length + 1) ∧ d.params = c.params ∧ d.modifiers = c.modifiers := by
  obtain ⟨code, hcode, hwithin, hsize, hlocals⟩ := exists_forwardingCode owner c
  cases h.symm.trans hcode
  refine ⟨hwithin, hsize.trans ?_, hlocals, rfl, rfl⟩
  rw [forwardingBuilder, CodeBuilder.size_emit, CodeBuilder.invokeSuperCtor, CodeBuilder.size_emitWith,
    CodeBuilder.loadAll, CodeBuilder.size_loads, List.length_range]
  change 0 + (c.params.length + 1) + 1 + 1 = _
  omega

/-- A constructor with too many parameters is forwarded by code that loads what is not there. -/
theorem params_lt_of_verify {deepest : Nat} (h : forwardingCtor owner c = .ok d)
    (hverify : d.code.verify = .ok deepest) : c.params.length + 1 < 0x10000 := by
  obtain ⟨hwithin, -⟩ := forwardingCtor_eq_ok h
  obtain ⟨-, hsound, -⟩ := Code.verify_eq_ok_iff_sound.1 hverify
  have hloaded := hsound.lt_locals_of_loads hwithin.of_emit.of_emitWith (Code.visits_start _)
  by_contra hlarge
  -- no local is numbered by the greatest word
  have hlast := hloaded 0xFFFF (List.mem_range.2 (by omega))
  have hgreatest := d.code.locals.toNat_lt
  rw [UInt16.lt_iff_toNat_lt, UInt16.toNat_ofNat_of_lt' (by decide)] at hlast
  omega

/-- What a constructor that forwards does: it runs the other one on the same arguments, and ends with nothing. -/
def handedOn (run : Runner) (c : Constructor) (this : ObjectRef) (args : List Value) : Action Value := do
  let _ ← World.holding (Holder.ofCall this args) (run (.constructor c this args))
  return .void

/-- The code that forwards ends as handing on does. -/
theorem ends_forwarding {run : Runner} (hrealizes : unit.Realizes id code place)
    (h : (((b.loadAll c.params.length).invokeSuperCtor c).emit .retVoid).Within code)
    (hargs : args.length = c.params.length) (hsmall : args.length + 1 < 0x10000) :
    unit.Ends run code place b.instrs.size ⟨(.object this :: args).toArray, []⟩ w (handedOn run c this args w) := by
  refine .loads hrealizes (forall₂_arguments this hsmall) ?_ ?_
  · rw [hargs]
    exact h.of_emit.of_emitWith
  rw [hargs]
  have hstack : (Value.object this :: args).reverse = args.reverse ++ .object this :: [] := List.reverse_cons
  refine .invokeSuperCtor hrealizes h.of_emit hargs ((List.append_nil _).trans hstack)
    (fun e w' hrun => ?_) fun v w' hrun => ?_
  all_goals rw [holders_arguments] at hrun
  · exact Action.bind_apply_error hrun
  · have hresult : handedOn run c this args w = (.ok .void, w') := Action.bind_apply_ok hrun
    rw [hresult]
    exact .retVoid hrealizes h

end Layer

/-! ## Constructors of layers -/

/-- The constructors of a class that subclasses can reach: they are neither final nor private. -/
def HostType.reachableConstructors (t : HostType) : List Constructor :=
  t.constructors.filter fun c => !c.modifiers.isFinal && !c.modifiers.isPrivate

namespace Emitter

variable {e : Emitter} {id : TypeId} {c c' : Constructor}

/-- Whether a constructor was made for a type to forward to another one. -/
def Forwards (e : Emitter) (id : TypeId) (c c' : Constructor) : Prop :=
  ∃ (owner name : String) (d : CtorDef), Layer.forwardingCtor owner c = .ok d ∧ e.Takes d.code ∧
    e.ctor id name d = .ok c'

/-- A constructor that forwards takes the same arguments, and can be reached alike. -/
theorem Forwards.same (h : e.Forwards id c c') : c'.params = c.params ∧ c'.modifiers = c.modifiers := by
  obtain ⟨_, _, d, hd, -, hmade⟩ := h
  obtain ⟨-, -, -, hparams, hmodifiers⟩ := Layer.forwardingCtor_eq_ok hd
  obtain ⟨_, -, rfl⟩ := map_eq_ok.1 hmade
  exact ⟨hparams, hmodifiers⟩

/-- Running a constructor that forwards comes to running the other one, if its code is verified. -/
theorem Forwards.comesTo (h : e.Forwards id c c') (hverify : e.verify = true) {w : World} {this : ObjectRef}
    {args : List Value} (hdefined : (w.types.lineage this.cls).any (·.id == id) = true)
    (hargs : args.length = c.params.length) {steps : Nat} (hsteps : c.params.length + 3 ≤ steps) (depth : Nat) :
    ComesTo w (exec steps (depth + 1) (.constructor c' this args)) (exec steps depth (.constructor c this args))
      fun _ _ => .ok .void := by
  obtain ⟨_, _, d, hd, ⟨hverified, -⟩, hmade⟩ := h
  obtain ⟨deepest, hdeepest⟩ := hverified hverify
  have hsmall := Layer.params_lt_of_verify hd hdeepest
  obtain ⟨hwithin, hsize, hlocals, hparams, -⟩ := Layer.forwardingCtor_eq_ok hd
  have hcount := Layer.toNat_locals hlocals hsmall
  rw [← hargs] at hcount
  obtain ⟨unit, hunit, rfl⟩ := map_eq_ok.1 hmade
  have hrealizes := realizes_of_size_lt hunit (by rw [hsize, UInt32.size]; omega)
  refine .holding (.of_eq (y := World.holding [.type id] (Layer.handedOn (exec steps depth) c this args) >>=
    fun _ => pure .void) ?_ ?_)
  · have hsame : args.length = d.params.length := hparams ▸ hargs
    simp only [Runner.runTask, Runner.checkCount, if_pos hsame, pure_bind]
    rw [Action.bind_apply, Action.bind_apply]
    rw [Layer.run_of_ends hrealizes hcount (by rw [World.isDefined, hdefined, Bool.true_or])
      (Layer.ends_forwarding hrealizes hwithin hargs (by omega)) (hsize ▸ hsteps)]
  · have hrun (w : World) := ComesTo.refl (held_exec steps depth (.constructor c this args) w)
    exact .map (.holding (.map (.holding (hrun _)) fun _ => .void)) fun _ => .void

/-- A class that is defined with the constructors of a layer has one for each that can be reached. -/
theorem Defines.forwards {types : TypeTable} {d : ClassDef} {s t : HostType} {owner : String} (h : e.Defines types d t)
    (hctors : Layer.forwardingCtors owner s = .ok d.ctors) :
    List.Forall₂ (e.Forwards t.id) s.reachableConstructors t.constructors := by
  have htakes : ∀ k ∈ d.ctors, e.Takes k.code :=
    fun k hk => h.takes k.code (List.mem_append_left _ (List.mem_map_of_mem hk))
  have hmade := (List.forall₂_and_left _ _).2 ⟨htakes, forall₂_of_mapM h.constructors⟩
  exact (forall₂_trans (forall₂_of_mapM hctors) hmade).imp fun _ _ ⟨k, hk, htaken, hctor⟩ =>
    ⟨_, _, k, hk, htaken, hctor⟩

/-- All constructors of a class can be reached that has those of a layer. -/
theorem reachableConstructors_of_forwards {s t : HostType}
    (h : List.Forall₂ (e.Forwards id) s.reachableConstructors t.constructors) :
    t.reachableConstructors = t.constructors := by
  refine List.filter_eq_self.2 fun c' hc' => ?_
  obtain ⟨c, hc, hforwards⟩ := exists_of_forall₂ h hc'
  rw [hforwards.same.2]
  exact (List.mem_filter.1 hc).2

/-- Whether a constructor of a proxy stands for one of what its bridge extends: it forwards to one of the bridge that
forwards to that. -/
def StandsFor (e : Emitter) (b t : HostType) (c c' : Constructor) : Prop :=
  ∃ between, e.Forwards b.id c between ∧ e.Forwards t.id between c'

theorem StandsFor.params {b t : HostType} (h : e.StandsFor b t c c') : c'.params = c.params := by
  obtain ⟨between, hbelow, habove⟩ := h
  rw [habove.same.1, hbelow.same.1]

/-- The constructors of a proxy stand, one by one, for those that can be reached of what its bridge extends. -/
theorem Built.standFor {older : TypeTable} {base b t s : HostType} {interfaces properties : List TypeId}
    {pairs : List PropertyPair} (h : e.Built older base interfaces properties pairs b t)
    (hs : older.lookup? (Layer.bridgeSuperclass base) = some s) :
    List.Forall₂ (e.StandsFor b t) s.reachableConstructors t.constructors := by
  obtain ⟨d, hd, hb⟩ := h.bridge
  obtain ⟨_, _, ctors, -, -, hctors, rfl⟩ := Layer.bridgeDef_eq_ok_iff.1 hd
  rw [Layer.ctorsOver, hs] at hctors
  have hbelow := hb.forwards hctors
  obtain ⟨d', hd', ht⟩ := h.proxy
  obtain ⟨_, ctors', -, hctors', rfl⟩ := Layer.proxyDef_eq_ok_iff.1 hd'
  have habove := ht.forwards hctors'
  rw [reachableConstructors_of_forwards hbelow] at habove
  exact forall₂_trans hbelow habove

end Emitter

/-! ## Making script objects -/

/-- What making a script object ends with once the constructor of its bridge has ended: an error of the constructor is
the error of the whole, wrapped if it is checked, and otherwise the script object is added and the bridge bound to it,
unless the bridge was bound already. -/
def ScriptType.concluded (script : ScriptType) (base : String) (p : PlatformId) (bridge : ObjectRef) :
    Except Halt Value × World → Except Halt (Except PlatformError InstanceId) × World
  | (.error .exhausted, w) => (.error .exhausted, w)
  | (.error (.raised e), w) => (.ok (.error (if e.isChecked then .construction base e else .host e)), w)
  | (.ok _, w) =>
    let made := w.withInstance ⟨script, bridge, p, script.liveProperties w.types⟩
    if made.isBound bridge then
      (.ok (.error (.host (.exception
        ⟨.illegalState, "bridge " ++ toString bridge.index ++ " is already bound"⟩))), made)
    else (.ok (.ok ⟨w.instances.size⟩), made.withBinding bridge ⟨w.instances.size⟩)

/-- What is asked for is not found fault with any more. -/
theorem ScriptType.concluded_ne_config {script : ScriptType} {base : String} {p : PlatformId} {bridge : ObjectRef}
    (r : Except Halt Value × World) (fault : ConfigError) :
    (script.concluded base p bridge r).1 ≠ .ok (.error (.config fault)) := by
  rcases r with ⟨(_ | e) | v, w⟩
  · nofun
  · rw [concluded]
    cases e.isChecked <;> nofun
  · rw [concluded]
    split <;> nofun

namespace Runner

variable {run : Runner} {w : World} {p : PlatformId} {proxy : TypeId} {t : HostType} {script : ScriptType}
  {params : List ValueType} {args : List Value}

/-- No script object is made with a constructor that the type of the bridge does not have. -/
theorem createInstance_of_none (hlength : params.length = args.length) (hlookup : w.types.lookup? proxy = some t)
    (hnone : t.findConstructor? params = none) : run.createInstance p proxy script params args w =
      (.ok (.error (.config (.noSuchConstructor (w.types.nameOf script.base) params))), w) := by
  rw [createInstance]
  refine (PlatformAction.bind_apply_ok (r := .ok w) rfl).trans ?_
  simp only [ExceptT.bindCont, hlength, ne_eq, not_true_eq_false, if_false, hlookup, Option.bind_some, hnone]
  rfl

/-- Making a script object runs the constructor of the type of the bridge that has the parameters, on a new object that
is marked meanwhile. -/
theorem createInstance_of_some {c : Constructor} (hlength : params.length = args.length)
    (hlookup : w.types.lookup? proxy = some t) (hconcrete : t.isAbstract = false)
    (hfound : t.findConstructor? params = some c) : run.createInstance p proxy script params args w =
      let r := script.concluded (w.types.nameOf script.base) p ⟨w.objects.size, proxy⟩
        (run (.constructor c ⟨w.objects.size, proxy⟩ args) ((w.allocated proxy).marked p (some ⟨w.objects.size, proxy⟩)))
      (r.1, r.2.marked p (w.platform p).constructing) := by
  have hallocate := PlatformAction.ofHost_apply_ok (World.allocate_apply hlookup hconcrete)
  rw [createInstance]
  refine (PlatformAction.bind_apply_ok (r := .ok w) rfl).trans ?_
  simp only [ExceptT.bindCont, hlength, ne_eq, not_true_eq_false, if_false, hlookup, Option.bind_some, hfound]
  refine (PlatformAction.bind_apply_ok hallocate).trans ?_
  simp only [ExceptT.bindCont]
  rcases hrun : run (.constructor c ⟨w.objects.size, proxy⟩ args)
    ((w.allocated proxy).marked p (some ⟨w.objects.size, proxy⟩)) with ⟨(_ | e) | v, after⟩
  · have houtcome : Action.outcome (run (.constructor c ⟨w.objects.size, proxy⟩ args))
        ((w.allocated proxy).marked p (some ⟨w.objects.size, proxy⟩)) = (.error .exhausted, after) := by
      rw [Action.outcome, hrun]
    exact World.constructing_apply (PlatformAction.lift_bind_apply_error houtcome)
  · have houtcome : Action.outcome (run (.constructor c ⟨w.objects.size, proxy⟩ args))
        ((w.allocated proxy).marked p (some ⟨w.objects.size, proxy⟩)) = (.ok (.error e), after) := by
      rw [Action.outcome, hrun]
    exact World.constructing_apply (PlatformAction.lift_bind_apply_ok houtcome)
  · have houtcome : Action.outcome (run (.constructor c ⟨w.objects.size, proxy⟩ args))
        ((w.allocated proxy).marked p (some ⟨w.objects.size, proxy⟩)) = (.ok (.ok v), after) := by
      rw [Action.outcome, hrun]
    refine World.constructing_apply ((PlatformAction.lift_bind_apply_ok houtcome).trans ?_)
    rw [ScriptType.concluded]
    refine (PlatformAction.lift_bind_apply_ok (Action.get_apply after)).trans ?_
    refine (PlatformAction.lift_bind_apply_ok (World.addInstance_apply _)).trans ?_
    dsimp only
    generalize after.withInstance _ = made
    cases hbound : made.isBound ⟨w.objects.size, proxy⟩ with
    | true =>
        have hbind : World.bind ⟨w.objects.size, proxy⟩ ⟨after.instances.size⟩ made = (.ok false, made) :=
          World.bind_apply.trans (if_pos hbound)
        exact PlatformAction.lift_bind_apply_ok hbind
    | false =>
        exact PlatformAction.lift_bind_apply_ok (World.bind_apply.trans (if_neg (Bool.eq_false_iff.1 hbound)))

end Runner

section

variable {e : Emitter} {w w₀ : World} {older : TypeTable} {base b t s : HostType} {interfaces properties : List TypeId}
  {pairs : List PropertyPair}

/-- A proxy is a class that is not abstract. -/
theorem Emitter.Built.isAbstract_eq_false (h : e.Built older base interfaces properties pairs b t) :
    t.isAbstract = false := by
  obtain ⟨d, hd, ht⟩ := h.proxy
  obtain ⟨_, _, -, -, rfl⟩ := Layer.proxyDef_eq_ok_iff.1 hd
  rw [HostType.isAbstract, HostType.isInterface, ht.kind, ht.modifiers]
  change (TypeKind.cls == TypeKind.iface || Modifiers.public.isAbstract) = false
  decide

/-- What the bridge of a base extends is there if the base is. -/
theorem TypeTable.Numbered.exists_superclass (h : older.Numbered) (hstart : TypeTable.initial <:+ older)
    (hbase : older.lookup? base.id = some base) : ∃ s, older.lookup? (Layer.bridgeSuperclass base) = some s := by
  rw [Layer.bridgeSuperclass]
  split
  · obtain ⟨r, hr, -⟩ := h.lookup?_root hstart
    exact ⟨r, hr⟩
  · exact ⟨base, hbase⟩

/-- Running a constructor of a proxy comes to one run of the constructor that it stands for. -/
theorem World.Stands.comesTo_constructor (h : w.Stands e older w₀ base interfaces properties b t)
    (hverify : e.verify = true) {c c' : Constructor} (hfor : e.StandsFor b t c c') {this : ObjectRef}
    (hcls : this.cls = t.id) {args : List Value} (hargs : args.length = c.params.length) {steps : Nat}
    (hsteps : c.params.length + 3 ≤ steps) (depth : Nat) :
    ComesTo w (exec steps (depth + 2) (.constructor c' this args)) (exec steps depth (.constructor c this args))
      fun _ _ => .ok .void := by
  obtain ⟨between, hbelow, habove⟩ := hfor
  have hdefined {s : HostType} (hs : s ∈ w.types.lineage t.id) :
      (w.types.lineage this.cls).any (·.id == s.id) = true :=
    List.any_eq_true.2 ⟨s, hcls ▸ hs, beq_self_eq_true _⟩
  have hsame := hbelow.same.1
  have hfirst := habove.comesTo hverify (hdefined (TypeTable.mem_lineage h.lookup)) (hsame ▸ hargs) (hsame ▸ hsteps)
    (depth + 1)
  have hboth := hfirst.trans fun w' haside =>
    hbelow.comesTo hverify (haside.types ▸ hdefined h.bridge_mem_lineage) hargs hsteps depth
  exact hboth.congr fun _ _ _ _ _ => rfl

/-- Making a script object with a constructor of a proxy comes to one run of the constructor that it stands for. -/
theorem World.Stands.exists_concluded (h : w.Stands e older w₀ base interfaces properties b t)
    (hbuilt : e.Built older base interfaces properties pairs b t) (hverify : e.verify = true) {c c' : Constructor}
    (hfor : e.StandsFor b t c c') {params : List ValueType} (hfound : t.findConstructor? params = some c')
    {args : List Value} (hlength : params.length = args.length) {steps : Nat} (hsteps : params.length + 3 ≤ steps)
    (depth : Nat) (p : PlatformId) (script : ScriptType) :
    ∃ w', ((w.allocated t.id).marked p (some ⟨w.objects.size, t.id⟩)).Aside w' ∧
      let run := exec steps depth (.constructor c ⟨w.objects.size, t.id⟩ args) w'
      let ended := script.concluded (w.types.nameOf script.base) p ⟨w.objects.size, t.id⟩
        (run.1, { run.2 with held := w.held })
      (exec steps (depth + 2)).createInstance p t.id script params args w =
        (ended.1, ended.2.marked p (w.platform p).constructing) := by
  have hparams : c'.params = params := by simpa using List.find?_some hfound
  rw [hfor.params] at hparams
  subst hparams
  have hmarked : ((w.allocated t.id).marked p (some ⟨w.objects.size, t.id⟩)).Stands e older w₀ base interfaces
      properties b t := ⟨h.toLayers, h.start, h.base, h.grown, h.numbered⟩
  have hcls : (⟨w.objects.size, t.id⟩ : ObjectRef).cls = t.id := rfl
  obtain ⟨w', haside, hcomes⟩ := hmarked.comesTo_constructor hverify hfor hcls hlength.symm hsteps depth
  refine ⟨w', haside, ?_⟩
  have hmade : (exec steps (depth + 2)).createInstance p t.id script c.params args w = _ :=
    Runner.createInstance_of_some hlength h.lookup hbuilt.isAbstract_eq_false hfound
  rw [hmade, hcomes]
  -- what a constructor ends with makes no difference
  rcases exec steps depth (.constructor c ⟨w.objects.size, t.id⟩ args) w' with ⟨_ | v, after⟩ <;> rfl

end

/-- **Forwarded constructors.** Let a subtype of a base be generated with its code verified, and let types be added
since. The constructors of the subtype take, one by one, what those of the base take that are neither final nor private;
for an interface they are those of the root class. Whoever makes a script object with a bridge of the subtype, and
names as many parameters as there are arguments, is told that there is no such constructor exactly if none of these has
exactly the parameters. Otherwise the first that has them is run once, on the new bridge and with the same arguments,
and how it ends is how the whole ends: an error is passed on, and wrapped if it is checked. -/
theorem World.createInstance_forwards {e : Emitter} {w₀ w₁ w : World} {base : HostType}
    {interfaces properties : List TypeId} {parent : Loader} {d : Option DispatcherId} {proxy : TypeId}
    (hverify : e.verify = true) (hstart : TypeTable.initial <:+ w₀.types)
    (hbase : w₀.types.lookup? base.id = some base)
    (hgenerate : World.generate e base.id interfaces properties parent d w₀ = (.ok proxy, w₁))
    (hgrown : w₁.types <:+ w.types) (hnumbered : w.types.Numbered) :
    ∃ t s, w.types.lookup? proxy = some t ∧
      w.types.lookup? (if base.isInterface then .root else base.id) = some s ∧
      t.constructors.map (·.params) = s.reachableConstructors.map (·.params) ∧
      ∀ (p : PlatformId) (script : ScriptType) (params : List ValueType) (args : List Value) (steps depth : Nat),
        params.length = args.length → params.length + 3 ≤ steps →
        let made := (exec steps (depth + 2)).createInstance p proxy script params args w
        let bridge : ObjectRef := ⟨w.objects.size, proxy⟩
        ((∃ name named, made.1 = .ok (.error (.config (.noSuchConstructor name named)))) ↔
          ∀ c ∈ s.reachableConstructors, c.params ≠ params) ∧
        ((∀ c ∈ s.reachableConstructors, c.params ≠ params) →
          made = (.ok (.error (.config (.noSuchConstructor (w.types.nameOf script.base) params))), w)) ∧
        ∀ c, s.reachableConstructors.find? (·.params == params) = some c →
          ∃ w', ((w.allocated proxy).marked p (some bridge)).Aside w' ∧
            let run := exec steps depth (.constructor c bridge args) w'
            let ended := script.concluded (w.types.nameOf script.base) p bridge (run.1, { run.2 with held := w.held })
            made = (ended.1, ended.2.marked p (w.platform p).constructing) := by
  obtain ⟨w₀', pairs, b, t, hlayers, hbuilt, rfl, htypes⟩ := layers_of_generate hbase hgenerate
  have hstands : w.Stands e w₀.types w₀' base interfaces properties b t :=
    ⟨hlayers, hstart, hbase, htypes ▸ hgrown, hnumbered⟩
  obtain ⟨new, hall, hnumbered', hlt⟩ := hstands.grown_base
  obtain ⟨s, hs⟩ := hnumbered'.of_append.exists_superclass hstart hbase
  have hs' : w.types.lookup? (Layer.bridgeSuperclass base) = some s := by
    rw [hall, hnumbered'.lookup?_append (TypeTable.index_bridgeSuperclass hstart hlt), hs]
  have hfor := hbuilt.standFor hs
  refine ⟨t, s, hstands.lookup, hs', ?_, fun p script params args steps depth hlength hsteps => ?_⟩
  · have hmapped := List.forall₂_map_left_iff.2 (List.forall₂_map_right_iff.2 (hfor.imp fun _ _ h => h.params.symm))
    exact (congrFun₂ List.forall₂_eq_eq_eq _ _ ▸ hmapped).symm
  intro made bridge
  obtain ⟨hnone, hsome⟩ := find?_of_forall₂ (p := fun c => c.params == params) (q := fun c => c.params == params)
    hfor fun c c' h => by rw [h.params]
  have hmissing : s.reachableConstructors.find? (·.params == params) = none ↔
      ∀ c ∈ s.reachableConstructors, c.params ≠ params := by
    simp [List.find?_eq_none]
  have hrefused (h : ∀ c ∈ s.reachableConstructors, c.params ≠ params) :
      made = (.ok (.error (.config (.noSuchConstructor (w.types.nameOf script.base) params))), w) :=
    Runner.createInstance_of_none hlength hstands.lookup (hnone (hmissing.2 h))
  have hrun (c : Constructor) (hc : s.reachableConstructors.find? (·.params == params) = some c) :
      ∃ w', ((w.allocated t.id).marked p (some bridge)).Aside w' ∧
        let run := exec steps depth (.constructor c bridge args) w'
        let ended := script.concluded (w.types.nameOf script.base) p bridge (run.1, { run.2 with held := w.held })
        made = (ended.1, ended.2.marked p (w.platform p).constructing) := by
    obtain ⟨c', hfound, hc'⟩ := hsome c hc
    exact hstands.exists_concluded hbuilt hverify hc' hfound hlength hsteps depth p script
  refine ⟨⟨?_, fun h => ⟨_, _, congrArg Prod.fst (hrefused h)⟩⟩, hrefused, hrun⟩
  rintro ⟨name, named, hconfig⟩
  refine hmissing.1 (Option.eq_none_iff_forall_ne_some.2 fun c hc => ?_)
  obtain ⟨w', -, hmade⟩ := hrun c hc
  rw [hmade] at hconfig
  exact ScriptType.concluded_ne_config _ _ hconfig

/-! ## A class with constructors of all sorts -/

/-- A checked exception. -/
def diskGone : HostError := .exception ⟨.custom "IOException" true, "disk gone"⟩

/-- A constructor that fails. -/
def fileOpen : Constructor := ⟨[.reference stringName], .public, "File", .native fun _ _ => .fail diskGone⟩

/-- A class with a private constructor, a final one, and two with the same parameter, of which the first fails. -/
def file : HostType :=
  { gauge [] with
    name := "File"
    constructors := [
      ⟨[], .private, "File", .native fun _ _ => .done .void⟩,
      ⟨[.primitive .int], .public ||| .final, "File", .native fun _ _ => .done .void⟩,
      fileOpen,
      ⟨[.reference stringName], .public, "File", .native fun _ _ => .done .void⟩] }

/-- The world with the class. -/
def fileWorld : World := { World.initial {} with types := file :: TypeTable.initial }

/-- A script type that extends the class. -/
def fileScript : ScriptType := TypeTable.extendScript fileWorld.types "Script" file.id [] [] []

/-- A script object is not made with the final constructor of the class, and not with the first of the two others,
since that fails. -/
theorem World.createInstance_forwards_file : ∃ (w : World) (proxy : TypeId),
    World.generate ⟨.weave, true⟩ file.id [] [] .system (some ⟨0⟩) fileWorld = (.ok proxy, w) ∧
    (w.types.lookup? proxy).map (·.constructors.map (·.params)) =
      some [[.reference stringName], [.reference stringName]] ∧
    ((exec 6 3).createInstance .first proxy fileScript [.primitive .int] [.ofInt32 1] w).1 =
      .ok (.error (.config (.noSuchConstructor "File" [.primitive .int]))) ∧
    ((exec 6 3).createInstance .first proxy fileScript [.reference stringName] [.str "a"] w).1 =
      .ok (.error (.construction "File" diskGone)) := by
  have hnumbered : fileWorld.types.Numbered := numbered_gauge []
  have hstart : TypeTable.initial <:+ fileWorld.types := ⟨[file], rfl⟩
  have hbase : fileWorld.types.lookup? file.id = some file := rfl
  have hempty (i : TypeId) : i ∈ ([] : List TypeId) → i.index < fileWorld.types.length := nofun
  have hall (i : TypeId) : i ∈ ([] : List TypeId) → ∀ t, fileWorld.types.lookup? i = some t → t.isInterface = true :=
    nofun
  have hmodest : fileWorld.types.Modest file ([] ++ (dedupIds [] ++ [.capability])) :=
    TypeTable.modest_of_forall (by decide) (by decide)
  obtain ⟨w, hgenerate⟩ := exists_generate_of_fits ⟨.weave, true⟩ .system ⟨0⟩ hnumbered hstart hbase hempty hmodest.fits hall
    rfl (.inr ⟨by decide, by decide⟩) rfl
  obtain ⟨t, -, ht, -⟩ := exists_hasSubtype hnumbered hstart hbase hempty hempty hgenerate
  obtain ⟨t', s, hlookup, hs, hparams, hmade⟩ := createInstance_forwards rfl hstart hbase hgenerate List.suffix_rfl
    ht.numbered
  -- the class is what it was
  obtain ⟨w₀, _, b, t'', hlayers, -, -, htypes⟩ := layers_of_generate hbase hgenerate
  have hgrown : w.types = [t'', b] ++ fileWorld.types := by rw [htypes, hlayers.types]; rfl
  have hnumbered' : TypeTable.Numbered ([t'', b] ++ fileWorld.types) := hgrown ▸ ht.numbered
  have hfile : w.types.lookup? file.id = some file := by
    rw [hgrown, hnumbered'.lookup?_append (by decide)]
    rfl
  obtain rfl : file = s := Option.some.inj (hfile.symm.trans hs)
  have hname : w.types.nameOf fileScript.base = "File" := by
    change w.types.nameOf file.id = "File"
    rw [TypeTable.nameOf, hfile]
    rfl
  refine ⟨w, _, hgenerate, ?_, ?_, ?_⟩
  · rw [hlookup, Option.map_some, hparams]
    rfl
  · obtain ⟨-, hrefused, -⟩ := hmade .first fileScript [.primitive .int] [.ofInt32 1] 6 1 rfl (by decide)
    rw [hname] at hrefused
    exact congrArg Prod.fst (hrefused (by decide))
  · obtain ⟨-, -, hran⟩ := hmade .first fileScript [.reference stringName] [.str "a"] 6 1 rfl (by decide)
    obtain ⟨w', -, hran⟩ := hran fileOpen rfl
    rw [hname] at hran
    exact congrArg Prod.fst hran

end Interpose
