import Interpose.Proofs.Generation
import Interpose.Proofs.Storing

/-!
# What layers store

The bodies of layers have no use for arrays but one: a dispatching body packs its arguments into an array that
it has made. What they name are operations and constructors of types that are there.
-/

namespace Interpose

open CodeBuilder (Continues Within)

/-! ## Careful code -/

/-- Whether a constant that is an operation or a constructor is one that a type has. -/
def Constant.Among (types : TypeTable) : Constant → Prop
  | .method m => ∃ t ∈ types, m ∈ t.methods
  | .ctor c => ∃ t ∈ types, c ∈ t.constructors
  | _ => True

/-- Whether code stores only into its own arrays, is short, and names what types have. -/
structure Code.Careful (types : TypeTable) (code : Code) : Prop where
  stores : code.StoresOwn
  short : code.IsShort
  constants : ∀ k ∈ code.constants, k.Among types

/-! ## What builders collect -/

/-- Whether an instruction neither stores into an array nor branches. -/
def Instr.IsPlain (i : Instr) : Prop := i.stores = false ∧ i.target? = none

/-- Whether all instructions of a builder and all its constants have a property. -/
structure CodeBuilder.Collects (b : CodeBuilder) (I : Instr → Prop) (K : Constant → Prop) : Prop where
  instrs : ∀ i ∈ b.instrs, I i
  constants : ∀ k ∈ b.constants, K k

namespace CodeBuilder.Collects

variable {b : CodeBuilder} {I : Instr → Prop} {K : Constant → Prop} {i : Instr} {c : Constant}
  {make : UInt16 → Instr}

theorem start (name : String) (params : Nat) : (CodeBuilder.start name params).Collects I K :=
  ⟨nofun, nofun⟩

theorem emit (h : b.Collects I K) (hi : I i) : (b.emit i).Collects I K where
  instrs j hj := by
    rcases Array.mem_push.1 hj with hj | rfl
    · exact h.instrs j hj
    · exact hi
  constants := h.constants

theorem emitWith (h : b.Collects I K) (hc : K c) (hmake : ∀ n, I (make n)) :
    (b.emitWith c make).Collects I K where
  instrs j hj := by
    rcases Array.mem_push.1 hj with hj | rfl
    · exact h.instrs j hj
    · exact hmake _
  constants k hk := by
    rcases Array.mem_push.1 hk with hk | rfl
    · exact h.constants k hk
    · exact hc

theorem loads (h : b.Collects I K) (hload : ∀ n, I (.load n)) (l : List Nat) :
    (l.foldl (fun b i => b.load (UInt16.ofNat i)) b).Collects I K := by
  induction l generalizing b with
  | nil => exact h
  | cons i l ih => exact ih (h.emit (hload _))

/-- What goes up collects one constant and plain instructions. -/
theorem goUp (h : b.Collects I K) (hplain : ∀ i : Instr, i.IsPlain → I i) {op : Method} {target : Option Method}
    (htarget : ∀ m ∈ target, K (.method m)) (hunsupported : K (.throwable (Layer.unsupported op))) :
    (Layer.goUp b op target).Collects I K := by
  cases target with
  | none =>
      exact (h.emitWith hunsupported fun n => hplain (.newThrowable n) ⟨rfl, rfl⟩).emit
        (hplain .throw ⟨rfl, rfl⟩)
  | some m =>
      have hloads := h.loads (fun n => hplain (.load n) ⟨rfl, rfl⟩) (List.range (op.params.length + 1))
      refine (hloads.emitWith (htarget m rfl) fun n => hplain (.invokeSuper n) ⟨rfl, rfl⟩).emit (hplain _ ?_)
      cases op.returns.isVoid with
      | true => exact ⟨rfl, rfl⟩
      | false => exact ⟨rfl, rfl⟩

theorem packArguments (h : b.Collects (fun _ => True) K) (hint : ∀ v, K (.int v)) (i : Nat)
    (params : List ValueType) : (Layer.packArguments b i params).Collects (fun _ => True) K := by
  induction params generalizing b i with
  | nil => exact h
  | cons t params ih =>
      refine ih ?_ (i + 1)
      have hload : (((b.emit .dup).pushInt (Int32.ofNat i)).load (CodeBuilder.param i)).Collects (fun _ => True) K :=
        ((h.emit trivial).emitWith (hint _) fun _ => trivial).emit trivial
      unfold Layer.packArgument
      cases t.kind? with
      | none => exact hload.emit trivial
      | some kind => exact (hload.emit trivial).emit trivial

theorem retAs (h : b.Collects (fun _ => True) K) (htype : ∀ t, K (.type t)) (t : ValueType) :
    (b.retAs t).Collects (fun _ => True) K := by
  cases t with
  | void => exact h.emit trivial
  | primitive kind => exact (h.emit trivial).emit trivial
  | reference _ | array _ => exact (h.emitWith (htype _) fun _ => trivial).emit trivial

end CodeBuilder.Collects

/-- A body without branches that stores nothing into arrays is careful. -/
theorem CodeBuilder.careful_of_collects {types : TypeTable} {b : CodeBuilder} {code : Code}
    (h : b.finish = .ok code) (hbranches : b.branches = [])
    (hb : b.Collects Instr.IsPlain (Constant.Among types)) : code.Careful types := by
  obtain ⟨instrs, hpatch, -, rfl⟩ := patched_of_finish h
  rw [hbranches] at hpatch
  cases hpatch
  refine ⟨fun pc m next _ hfetch => ?_, .inl fun i hi => (hb.instrs i hi).2, hb.constants⟩
  obtain ⟨i, hi, hpair⟩ := Option.map_eq_some_iff.1 hfetch
  cases hpair
  exact absurd (hb.instrs _ (Array.mem_of_getElem? hi)).1 (by decide)

/-! ## Following control -/

/-- Whether control that reaches a position with something known goes on to its end without storing into other
than its own arrays. -/
inductive Code.Guards (code : Code) : Nat → Marks → Prop
  | intro {pc : Nat} {m : Marks} (hstore : code.instrs[pc]? = some .arrayStore → m.stack[2]? = some true)
      (hnext : ∀ i q, code.instrs[pc]? = some i → q ∈ i.leads (pc + 1) → code.Guards q (m.after code i)) :
      code.Guards pc m

namespace Code.Guards

variable {b : CodeBuilder} {code : Code} {i : Instr} {c : Constant} {make : UInt16 → Instr}

theorem of_instr {pc : Nat} {m : Marks} (hinstr : code.instrs[pc]? = some i)
    (hstore : i.stores = true → m.stack[2]? = some true)
    (hnext : ∀ q ∈ i.leads (pc + 1), code.Guards q (m.after code i)) : code.Guards pc m := by
  refine .intro (fun h => hstore ?_) fun j q h hq => ?_
  all_goals
    rw [hinstr] at h
    cases h
  · rfl
  · exact hnext q hq

theorem of_plain {pc : Nat} {m : Marks} (hinstr : code.instrs[pc]? = some i) (hplain : i.stores = false)
    (hnext : ∀ q ∈ i.leads (pc + 1), code.Guards q (m.after code i)) : code.Guards pc m :=
  of_instr hinstr (fun h => absurd h (Bool.eq_false_iff.1 hplain)) hnext

/-- Code stores only into its own arrays if control goes on so from its start. -/
theorem storesOwn (h : code.Guards 0 .start) : code.StoresOwn := by
  have hreached {pc : Nat} {m : Marks} (hreaches : code.Reaches (.woven code.instrs) pc m) :
      code.Guards pc m := by
    induction hreaches with
    | start => exact h
    | go _ hfetch hq ih =>
        obtain ⟨i, hi, hpair⟩ := Option.map_eq_some_iff.1 hfetch
        cases hpair
        cases ih with
        | intro _ hnext => exact hnext _ _ hi hq
  intro pc m next hreaches hfetch
  obtain ⟨i, hi, hpair⟩ := Option.map_eq_some_iff.1 hfetch
  cases hpair
  cases hreached hreaches with
  | intro hstore _ => exact hstore hi

/-- Control goes on after an instruction that is added. -/
theorem added {m : Marks} (h : (b.emit i).Within code) (hnext : i.successors = .next)
    (hstore : i.stores = true → m.stack[2]? = some true)
    (hrest : code.Guards (b.emit i).instrs.size (m.after code i)) : code.Guards b.instrs.size m := by
  have htarget : i.target? = none := by rw [Instr.target?, hnext]
  refine .of_instr (h.emitted htarget) hstore fun q hq => ?_
  rw [Instr.leads, hnext] at hq
  obtain rfl := List.mem_singleton.1 hq
  rwa [CodeBuilder.size_emit] at hrest

theorem emit {m : Marks} (h : (b.emit i).Within code) (hnext : i.successors = .next) (hplain : i.stores = false)
    (hrest : code.Guards (b.emit i).instrs.size (m.after code i)) : code.Guards b.instrs.size m :=
  added h hnext (fun hstores => absurd hstores (Bool.eq_false_iff.1 hplain)) hrest

/-- It does so after an instruction that stores into an array of the body's own. -/
theorem emitStore {m : Marks} (h : (b.emit .arrayStore).Within code) (hstore : m.stack[2]? = some true)
    (hrest : code.Guards (b.emit .arrayStore).instrs.size (m.after code .arrayStore)) : code.Guards b.instrs.size m :=
  added h rfl (fun _ => hstore) hrest

/-- Control goes on after an instruction that is added with a constant. -/
theorem emitWith {m : Marks} (h : (b.emitWith c make).Within code) (hnext : ∀ n, (make n).successors = .next)
    (hplain : ∀ n, (make n).stores = false)
    (hrest : ∀ n : UInt16, code.constants[n.toNat]? = some c →
      code.Guards (b.emitWith c make).instrs.size (m.after code (make n))) : code.Guards b.instrs.size m := by
  obtain ⟨n, hinstr, hconstant⟩ := h.emittedWith fun n => by rw [Instr.target?, hnext]
  refine .of_plain hinstr (hplain n) fun q hq => ?_
  rw [Instr.leads, hnext] at hq
  obtain rfl := List.mem_singleton.1 hq
  have hrest := hrest n hconstant
  rwa [CodeBuilder.size_emitWith] at hrest

/-- Control ends with an instruction that is added. -/
theorem last {m : Marks} (h : (b.emit i).Within code) (hends : i.successors = .none) (hplain : i.stores = false) :
    code.Guards b.instrs.size m := by
  have htarget : i.target? = none := by rw [Instr.target?, hends]
  refine .of_plain (h.emitted htarget) hplain fun q hq => ?_
  rw [Instr.leads, hends] at hq
  cases hq

theorem loads {l : List Nat} (h : (l.foldl (fun b i => b.load (UInt16.ofNat i)) b).Within code)
    (hrest : ∀ m, code.Guards (l.foldl (fun b i => b.load (UInt16.ofNat i)) b).instrs.size m) (m : Marks) :
    code.Guards b.instrs.size m := by
  induction l generalizing b m with
  | nil => exact hrest m
  | cons i l ih => exact .emit (h.of_continues ((Continues.refl _).loads l)) rfl rfl (ih h hrest _)

end Code.Guards

namespace Layer

variable {b : CodeBuilder} {code : Code} {op : Method} {target : Option Method} {name owner : String}
  {index : Nat} {types : TypeTable}

/-! ## Dispatching bodies -/

theorem guards_goUp (h : (goUp b op target).Within code) (m : Marks) : code.Guards b.instrs.size m := by
  cases target with
  | none => exact .emitWith h.of_emit (fun _ => rfl) (fun _ => rfl) fun _ _ => .last h rfl rfl
  | some target =>
      have hinvoke : ((b.loadAll op.params.length).invokeSuper target).Within code := h.of_emit
      refine .loads hinvoke.of_emitWith (fun m => ?_) m
      refine .emitWith hinvoke (fun _ => rfl) (fun _ => rfl) fun _ _ => ?_
      rw [goUp] at h
      cases hvoid : op.returns.isVoid with
      | true =>
          rw [hvoid] at h
          exact .last h rfl rfl
      | false =>
          rw [hvoid] at h
          exact .last h rfl rfl

/-- Packing an argument stores into the array on top of the stack, and leaves that there. -/
theorem guards_packArgument {i : Nat} {t : ValueType} {m : Marks} (h : (packArgument b i t).Within code)
    (htop : m.stack.head? = some true)
    (hrest : ∀ m : Marks, m.stack.head? = some true → code.Guards (packArgument b i t).instrs.size m) :
    code.Guards b.instrs.size m := by
  have hload := h.of_continues (continues_packArgument_load b i t)
  obtain ⟨locals, _ | ⟨top, rest⟩⟩ := m
  · cases htop
  obtain rfl : top = true := Option.some.inj htop
  refine .emit hload.of_emit.of_emitWith rfl rfl (.emitWith hload.of_emit (fun _ => rfl) (fun _ => rfl) fun n hn => ?_)
  have heffect : code.stackEffect (.const n) = .ok ⟨0, 1⟩ := by
    rw [Code.stackEffect, Code.constant, hn]
  rw [Marks.after_eq_put _ heffect rfl]
  refine .emit hload rfl rfl ?_
  unfold packArgument at h hrest
  cases hkind : t.kind? with
  | none =>
      rw [hkind] at h hrest
      exact .emitStore h rfl (hrest _ rfl)
  | some kind =>
      rw [hkind] at h hrest
      exact .emit h.of_emit rfl rfl (.emitStore h rfl (hrest _ rfl))

theorem guards_packArguments {i : Nat} {params : List ValueType} {m : Marks}
    (h : (packArguments b i params).Within code) (htop : m.stack.head? = some true)
    (hrest : ∀ m : Marks, m.stack.head? = some true → code.Guards (packArguments b i params).instrs.size m) :
    code.Guards b.instrs.size m := by
  induction params generalizing b i m with
  | nil => exact hrest m htop
  | cons t params ih =>
      rw [packArguments] at h hrest
      exact guards_packArgument (h.of_continues (continues_packArguments _ _ _)) htop
        fun m htop => ih h htop hrest

theorem guards_thunkReturn (h : (thunkReturn name index op).Within code) (m : Marks) :
    code.Guards (thunkCall name index op).instrs.size m := by
  rw [thunkReturn] at h
  cases hreturns : op.returns with
  | void | primitive _ =>
      rw [hreturns] at h
      exact .emit h.of_emit rfl rfl (.last h rfl rfl)
  | reference _ | array _ =>
      rw [hreturns] at h
      exact .emitWith (Within.of_emit h) (fun _ => rfl) (fun _ => rfl) fun _ _ => .last h rfl rfl

/-- A dispatching body stores nothing but its arguments, into the array that it has made for them. -/
theorem guards_thunk (h : thunkCode name index op target = .ok code) : code.Guards 0 .start := by
  have hthunk := within_thunk h
  have hcall := within_thunkCall h
  have hpacked : (packArguments (thunkArray name index op) 0 op.params).Within code := hcall.of_emit
  have harray := within_thunkArray h
  have hstart := within_thunkStart h
  have hup : (((thunkReturn name index op).markLabel 0).emit .pop).Within code :=
    hthunk.of_continues (continues_goUp _ op target)
  obtain ⟨t, hbranch, ht⟩ := branch_of_thunk h
  refine .emit hstart.of_emit rfl rfl (.emit hstart rfl rfl ?_)
  refine .of_plain hbranch rfl fun q hq => ?_
  rcases List.mem_cons.1 hq with rfl | hq
  · have hnew := harray.of_emit
    refine .emit hnew.of_emitWith.of_emit.of_emitWith.of_emit rfl rfl ?_
    refine .emit hnew.of_emitWith.of_emit.of_emitWith rfl rfl ?_
    refine .emitWith hnew.of_emitWith.of_emit (fun _ => rfl) (fun _ => rfl) fun _ _ => ?_
    refine .emit hnew.of_emitWith rfl rfl (.emitWith hnew (fun _ => rfl) (fun _ => rfl) fun _ _ => ?_)
    -- from here on the array of arguments is on top of the stack
    refine .emit harray rfl rfl (guards_packArguments hpacked rfl fun m _ => ?_)
    exact .emit hcall rfl rfl (guards_thunkReturn (within_thunkReturn h) _)
  · obtain rfl := List.mem_singleton.1 hq
    rw [ht]
    change code.Guards ((thunkReturn name index op).markLabel 0).instrs.size _
    exact .emit hup rfl rfl (guards_goUp hthunk _)

/-- A dispatching body is careful. -/
theorem careful_thunk (h : thunkCode name index op target = .ok code)
    (htarget : ∀ m ∈ target, ∃ t ∈ types, m ∈ t.methods) : code.Careful types := by
  have hsize := size_thunk_le h
  have hlt := params_lt_of_thunk h
  have hcollects : (thunkBuilder name index op target).Collects (fun _ => True) (Constant.Among types) := by
    refine .goUp ?_ (fun _ _ => trivial) htarget trivial
    refine CodeBuilder.Collects.emit (b := (thunkReturn name index op).markLabel 0) ?_ trivial
    have hcall : (thunkCall name index op).Collects (fun _ => True) (Constant.Among types) := by
      refine (CodeBuilder.Collects.packArguments ?_ (fun _ => trivial) _ _).emit trivial
      have hstart : ((thunkStart name op).emitBranch .ifNull 0).Collects (fun _ => True) (Constant.Among types) :=
        ⟨fun _ _ => trivial, nofun⟩
      have hint (v : Int32) : Constant.Among types (.int v) := trivial
      have hload : (((thunkStart name op).emitBranch .ifNull 0).load 0).Collects (fun _ => True)
          (Constant.Among types) := hstart.emit trivial
      exact (((((hload.emit trivial).emitWith (hint _) fun _ => trivial).emit trivial).emitWith (hint _)
        fun _ => trivial)).emit trivial
    have hreturn : (thunkReturn name index op).Collects (fun _ => True) (Constant.Among types) := by
      unfold thunkReturn
      cases op.returns.isVoid with
      | true => exact (hcall.emit trivial).emit trivial
      | false => exact hcall.retAs (fun _ => trivial) _
    exact ⟨hreturn.instrs, hreturn.constants⟩
  obtain ⟨_, -, -, rfl⟩ := CodeBuilder.patched_of_finish h
  refine ⟨(guards_thunk h).storesOwn, Code.isShort_of_size_lt ?_, hcollects.constants⟩
  rw [UInt32.size]
  omega

/-! ## Other bodies -/

/-- A body that only goes up is careful. -/
theorem careful_goUp {params : Nat} (h : (goUp (CodeBuilder.start name params) op target).finish = .ok code)
    (htarget : ∀ m ∈ target, ∃ t ∈ types, m ∈ t.methods) : code.Careful types :=
  CodeBuilder.careful_of_collects h (continues_goUp _ op target).branches
    (.goUp (.start name params) (fun _ hi => hi) htarget trivial)

theorem careful_forwardingCtor {c : Constructor} {d : CtorDef} (h : forwardingCtor owner c = .ok d)
    (hc : ∃ t ∈ types, c ∈ t.constructors) : d.code.Careful types := by
  obtain ⟨code, hcode, hd⟩ := bind_eq_ok.1 h
  rw [pure_eq_ok] at hd
  subst hd
  have hloads (name : String) := (CodeBuilder.Collects.start (I := Instr.IsPlain) (K := Constant.Among types) name
    c.params.length).loads (fun _ => ⟨rfl, rfl⟩) (List.range (c.params.length + 1))
  have hctor : (Constant.ctor c).Among types := hc
  refine CodeBuilder.careful_of_collects hcode ?_ ?_
  · exact ((((Continues.refl _).loads _).emitWith (.ctor c) .invokeSuperCtor).emit .retVoid).branches
  · exact ((hloads _).emitWith hctor fun n => (⟨rfl, rfl⟩ : (Instr.invokeSuperCtor n).IsPlain)).emit ⟨rfl, rfl⟩

theorem careful_forwardingCtors {superclass : HostType} {ctors : List CtorDef}
    (h : forwardingCtors owner superclass = .ok ctors) (hsuperclass : superclass ∈ types) :
    ∀ c ∈ ctors, c.code.Careful types := by
  intro d hd
  obtain ⟨c, hc, hmade⟩ := exists_of_forall₂ (forall₂_of_mapM h) hd
  exact careful_forwardingCtor hmade ⟨superclass, hsuperclass, (List.mem_filter.1 hc).1⟩

theorem careful_propertyMethods {pairs : List PropertyPair} {defs : List MethodDef}
    (h : propertyMethods owner pairs = .ok defs) : ∀ m ∈ defs, m.code.Careful types := by
  induction pairs generalizing defs with
  | nil =>
      cases h
      exact List.forall_mem_nil _
  | cons p pairs ih =>
      obtain ⟨getter, hgetter, h⟩ := bind_eq_ok.1 h
      obtain ⟨setter, hsetter, h⟩ := bind_eq_ok.1 h
      obtain ⟨rest, hrest, h⟩ := bind_eq_ok.1 h
      obtain ⟨_, hget, hgetter⟩ := bind_eq_ok.1 hgetter
      obtain ⟨_, hset, hsetter⟩ := bind_eq_ok.1 hsetter
      rw [pure_eq_ok] at h hgetter hsetter
      subst h hgetter hsetter
      refine List.forall_mem_cons.2 ⟨?_, List.forall_mem_cons.2 ⟨?_, ih hrest⟩⟩
      · refine CodeBuilder.careful_of_collects hget rfl ?_
        exact (((CodeBuilder.Collects.start _ _).emit ⟨rfl, rfl⟩).emitWith trivial
          fun n => (⟨rfl, rfl⟩ : (Instr.getField n).IsPlain)).emit ⟨rfl, rfl⟩
      · refine CodeBuilder.careful_of_collects hset rfl ?_
        exact ((((CodeBuilder.Collects.start _ _).emit ⟨rfl, rfl⟩).emit ⟨rfl, rfl⟩).emitWith trivial
          fun n => (⟨rfl, rfl⟩ : (Instr.putField n).IsPlain)).emit ⟨rfl, rfl⟩

theorem careful_proxyMethods {bridge : TypeId} {k : Nat} {ops : List Method} {defs : List MethodDef}
    (h : proxyMethods types owner bridge k ops = .ok defs) : ∀ m ∈ defs, m.code.Careful types := by
  have htarget (op : Method) : ∀ m ∈ superTarget? types bridge op, ∃ t ∈ types, m ∈ t.methods := by
    intro m hm
    have hfound := (Option.filter_eq_some_iff.1 hm).1
    exact TypeTable.exists_of_mem_methodsOf (List.mem_of_find?_eq_some hfound)
  induction ops generalizing k defs with
  | nil =>
      cases h
      exact List.forall_mem_nil _
  | cons op ops ih =>
      obtain ⟨dispatching, hdispatching, h⟩ := bind_eq_ok.1 h
      obtain ⟨upward, hupward, h⟩ := bind_eq_ok.1 h
      obtain ⟨rest, hrest, h⟩ := bind_eq_ok.1 h
      obtain ⟨_, hthunk, rfl⟩ := thunk_eq_ok.1 hdispatching
      obtain ⟨_, haccessor, rfl⟩ := accessor_eq_ok.1 hupward
      rw [pure_eq_ok] at h
      subst h
      refine List.forall_mem_cons.2 ⟨careful_thunk hthunk (htarget op), List.forall_mem_cons.2 ⟨?_, ih hrest⟩⟩
      exact careful_goUp haccessor (htarget op)

/-! ## Layers -/

/-- All code of a bridge is careful. -/
theorem careful_bridgeDef {base : HostType} {abstracts : List Method} {pairs : List PropertyPair}
    {properties : List TypeId} {d : ClassDef}
    (h : bridgeDef types base abstracts pairs properties = .ok d) : ∀ c ∈ d.codes, c.Careful types := by
  obtain ⟨accessors, stubs, ctors, haccessors, hstubs, hctors, rfl⟩ := bridgeDef_eq_ok_iff.1 h
  refine ClassDef.forall_mem_codes.2 ⟨?_, List.forall_mem_append.2 ⟨careful_propertyMethods haccessors, ?_⟩⟩
  · rw [ctorsOver] at hctors
    split at hctors
    · rename_i hlookup
      exact careful_forwardingCtors hctors (TypeTable.mem_of_lookup? hlookup).1
    · cases hctors
      exact List.forall_mem_nil _
  · intro m hm
    obtain ⟨op, -, hstub⟩ := exists_of_forall₂ (forall₂_of_mapM hstubs) hm
    obtain ⟨_, hcode, hm⟩ := bind_eq_ok.1 hstub
    rw [pure_eq_ok] at hm
    subst hm
    exact careful_goUp hcode fun target htarget => by cases htarget

/-- All code of a proxy is careful. -/
theorem careful_proxyDef {bridge base : HostType} {operations : List Method} {requested : List TypeId} {d : ClassDef}
    (h : proxyDef types bridge base operations requested = .ok d) (hbridge : bridge ∈ types) :
    ∀ c ∈ d.codes, c.Careful types := by
  obtain ⟨methods, ctors, hmethods, hctors, rfl⟩ := proxyDef_eq_ok_iff.1 h
  exact ClassDef.forall_mem_codes.2 ⟨careful_forwardingCtors hctors hbridge, careful_proxyMethods hmethods⟩

end Layer

end Interpose
