import Interpose.Proofs.Acceptance
import Interpose.Proofs.Building

/-!
# The bodies of layers are accepted

Each body that a layer has stays within its code at depths that are known, whatever the signature of its
operation. The dispatching body is the only one that can be refused: it has a constant for each parameter, and
the table of constants is limited.
-/

namespace Interpose

open CodeBuilder (Continues Within)

/-! ## One instruction -/

namespace Code.Leads

variable {b : CodeBuilder} {code : Code} {i : Instr} {c : Constant} {make : UInt16 → Instr}
  {pops pushes rest limit depth : Nat}

theorem depthAfter_eq (h : code.stackEffect i = .ok ⟨pops, pushes⟩) (rest : Nat) :
    code.depthAfter (rest + pops) i = .ok (rest + pushes) := by
  rw [depthAfter, h]
  change (if rest + pops < pops then _ else _) = _
  rw [if_neg (by omega), Nat.add_sub_cancel]

/-- Control goes on after an instruction that is added. -/
theorem emit (h : (b.emit i).Within code) (hnext : i.successors = .next)
    (heffect : code.stackEffect i = .ok ⟨pops, pushes⟩) (hdepth : depth = rest + pops)
    (hrest : code.Leads (b.emit i).instrs.size (rest + pushes) limit) :
    code.Leads b.instrs.size depth limit := by
  have htarget : i.target? = none := by rw [Instr.target?, hnext]
  rw [CodeBuilder.size_emit] at hrest
  exact .next (h.emitted htarget) hnext (hdepth ▸ depthAfter_eq heffect rest) hrest

/-- Control goes on after an instruction that is added with a constant. -/
theorem emitWith (h : (b.emitWith c make).Within code) (hnext : ∀ n, (make n).successors = .next)
    (heffect : ∀ n : UInt16, code.constants[n.toNat]? = some c →
      code.stackEffect (make n) = .ok ⟨pops, pushes⟩) (hdepth : depth = rest + pops)
    (hrest : code.Leads (b.emitWith c make).instrs.size (rest + pushes) limit) :
    code.Leads b.instrs.size depth limit := by
  obtain ⟨n, hinstr, hconstant⟩ := h.emittedWith fun n => by rw [Instr.target?, hnext]
  rw [CodeBuilder.size_emitWith] at hrest
  exact .next hinstr (hnext n) (hdepth ▸ depthAfter_eq (heffect n hconstant) rest) hrest

/-- Control ends with an instruction that is added. -/
theorem last (h : (b.emit i).Within code) (hends : i.successors = .none)
    (heffect : code.stackEffect i = .ok ⟨pops, pushes⟩) (hdepth : depth = rest + pops) :
    code.Leads b.instrs.size depth (b.emit i).instrs.size := by
  have htarget : i.target? = none := by rw [Instr.target?, hends]
  rw [CodeBuilder.size_emit]
  exact .stop (h.emitted htarget) hends (hdepth ▸ depthAfter_eq heffect rest)

/-- Loading a local that exists puts a value on the stack. -/
theorem load {n : UInt16} (hn : n < code.locals) (h : (b.load n).Within code)
    (hrest : code.Leads (b.load n).instrs.size (depth + 1) limit) : code.Leads b.instrs.size depth limit :=
  .emit h rfl (if_pos hn) rfl hrest

/-- Loading locals that exist puts as many values on the stack. -/
theorem loads {l : List Nat} (hl : ∀ i ∈ l, UInt16.ofNat i < code.locals)
    (h : (l.foldl (fun b i => b.load (UInt16.ofNat i)) b).Within code)
    (hrest : code.Leads (l.foldl (fun b i => b.load (UInt16.ofNat i)) b).instrs.size (depth + l.length)
      limit) : code.Leads b.instrs.size depth limit := by
  induction l generalizing b depth with
  | nil => exact hrest
  | cons i l ih =>
      obtain ⟨hi, hl⟩ := List.forall_mem_cons.1 hl
      rw [List.length_cons, Nat.add_comm l.length 1, ← Nat.add_assoc] at hrest
      exact .load hi (h.of_continues ((Continues.refl _).loads l)) (ih hl h hrest)

/-- Pushing a number puts a value on the stack. -/
theorem pushInt {v : Int32} (h : (b.pushInt v).Within code)
    (hrest : code.Leads (b.pushInt v).instrs.size (depth + 1) limit) :
    code.Leads b.instrs.size depth limit :=
  .emitWith h (fun _ => rfl) (fun n hn => by rw [stackEffect, constant, hn]) rfl hrest

end Code.Leads

/-! ## Going up -/

namespace Layer

variable {b : CodeBuilder} {code : Code} {op : Method} {target : Option Method} {depth limit : Nat}
  {name owner : String} {index : Nat}

/-- A word holds the number of a local if there are not too many. -/
theorem ofNat_lt_locals {n i : Nat} (hlocals : code.locals.toNat = n + 1) (hi : i ≤ n) :
    UInt16.ofNat i < code.locals := by
  have hsize := code.locals.toNat_lt
  rw [UInt16.lt_iff_toNat_lt, hlocals, UInt16.toNat_ofNat_of_lt' (by rw [UInt16.size]; omega)]
  omega

/-- Control ends where a body goes up. -/
theorem leads_goUp (h : (goUp b op target).Within code)
    (htarget : ∀ m ∈ target, m.slot = op.slot ∧ code.locals.toNat = op.params.length + 1) :
    code.Leads b.instrs.size depth (goUp b op target).instrs.size := by
  cases target with
  | none =>
      have heffect (n : UInt16) (hn : code.constants[n.toNat]? = some (.throwable (unsupported op))) :
          code.stackEffect (.newThrowable n) = .ok ⟨0, 1⟩ := by
        rw [Code.stackEffect, Code.constant, hn]
      exact .emitWith h.of_emit (fun _ => rfl) heffect rfl (.last h rfl rfl rfl)
  | some target =>
      obtain ⟨hslot, hlocals⟩ := htarget target rfl
      obtain ⟨-, hreturns, hparams⟩ := Slot.mk.inj hslot
      have hinvoke : ((b.loadAll op.params.length).invokeSuper target).Within code := h.of_emit
      refine .loads (fun i hi => ?_) hinvoke.of_emitWith ?_
      · exact ofNat_lt_locals hlocals (Nat.le_of_lt_succ (List.mem_range.1 hi))
      have heffect (n : UInt16) (hn : code.constants[n.toNat]? = some (.method target)) :
          code.stackEffect (.invokeSuper n) =
            .ok ⟨op.params.length + 1, if op.returns.isVoid then 0 else 1⟩ := by
        rw [Code.stackEffect, Code.constant, hn]
        dsimp only
        rw [hparams, hreturns]
      refine .emitWith hinvoke (fun _ => rfl) heffect (by rw [List.length_range]) ?_
      -- nothing is left on the stack by a call without a result
      rw [goUp] at h ⊢
      cases hvoid : op.returns.isVoid with
      | true =>
          rw [hvoid] at h
          exact .last h rfl rfl rfl
      | false =>
          rw [hvoid] at h
          exact .last h rfl rfl rfl

/-! ## Bodies without branches -/

/-- A body with one constant and no branches is finished, and is as long as its builder says. -/
theorem exists_finish_of_continues {params : Nat} (h : b.Continues (CodeBuilder.start name params))
    (hconstants : b.constants.size = 1) :
    ∃ code, b.finish = .ok code ∧ b.Within code ∧ code.instrs.size = b.instrs.size ∧
      code.locals = UInt16.ofNat (params + 1) := by
  have hbranches : ∀ x ∈ b.branches, ∃ p, b.markOf? x.2 = some p := by
    rw [h.branches]
    nofun
  obtain ⟨code, hcode⟩ := CodeBuilder.exists_finish hbranches (hconstants ▸ by decide)
  refine ⟨code, hcode, CodeBuilder.within_of_finish (h.wellFormed (CodeBuilder.wellFormed_start _ _)) hcode,
    CodeBuilder.size_of_finish hcode, ?_⟩
  obtain ⟨_, -, -, rfl⟩ := CodeBuilder.patched_of_finish hcode
  exact h.locals

theorem toNat_locals {n : Nat} (hlocals : code.locals = UInt16.ofNat (n + 1)) (hn : n + 1 < 0x10000) :
    code.locals.toNat = n + 1 := by
  rw [hlocals, UInt16.toNat_ofNat_of_lt' hn]

/-- Loading locals needs no constants. -/
theorem constants_loadAll (b : CodeBuilder) (n : Nat) : (b.loadAll n).constants = b.constants := by
  have hloads (l : List Nat) (b : CodeBuilder) :
      (l.foldl (fun b i => b.load (UInt16.ofNat i)) b).constants = b.constants := by
    induction l generalizing b with
    | nil => rfl
    | cons i l ih => exact ih _
  exact hloads _ b

theorem size_constants_goUp (b : CodeBuilder) (op : Method) (target : Option Method) :
    (goUp b op target).constants.size = b.constants.size + 1 := by
  cases target with
  | none => exact Array.size_push _
  | some target => exact (Array.size_push _).trans (by rw [constants_loadAll])

/-- The code that forwards to a constructor: it loads the receiver and the arguments, runs it and returns. -/
def forwardingBuilder (owner : String) (c : Constructor) : CodeBuilder :=
  (((CodeBuilder.start (bodyName owner "<init>" c.params .void) c.params.length).loadAll
    c.params.length).invokeSuperCtor c).emit .retVoid

/-- A constructor can always be forwarded. -/
theorem exists_forwardingCode (owner : String) (c : Constructor) : ∃ code,
    forwardingCtor owner c = .ok ⟨c.params, c.modifiers, code⟩ ∧ (forwardingBuilder owner c).Within code ∧
    code.instrs.size = (forwardingBuilder owner c).instrs.size ∧ code.locals = UInt16.ofNat (c.params.length + 1) := by
  have hcontinues := (((Continues.refl (CodeBuilder.start (bodyName owner "<init>" c.params .void)
    c.params.length)).loads (List.range (c.params.length + 1))).emitWith (.ctor c) .invokeSuperCtor).emit
      .retVoid
  obtain ⟨code, hcode, hrest⟩ := exists_finish_of_continues hcontinues
    ((Array.size_push _).trans (congrArg (Array.size · + 1) (constants_loadAll _ _)))
  exact ⟨code, bind_eq_ok.2 ⟨code, hcode, rfl⟩, hrest⟩

/-- A constructor is forwarded by code that is accepted unless it has too many parameters. -/
theorem exists_forwardingCtor (owner : String) (c : Constructor) : ∃ d, forwardingCtor owner c = .ok d ∧
    d.params = c.params ∧ (c.params.length + 1 < 0x10000 → d.code.Leads 0 0 d.code.instrs.size) := by
  obtain ⟨code, hcode, h, hsize, hlocals⟩ := exists_forwardingCode owner c
  refine ⟨_, hcode, rfl, fun hsmall => ?_⟩
  have heffect (n : UInt16) (hn : code.constants[n.toNat]? = some (.ctor c)) :
      code.stackEffect (.invokeSuperCtor n) = .ok ⟨c.params.length + 1, 0⟩ := by
    rw [Code.stackEffect, Code.constant, hn]
  change code.Leads 0 0 code.instrs.size
  rw [hsize]
  refine Code.Leads.loads (fun i hi => ?_) h.of_emit.of_emitWith ?_
  · exact ofNat_lt_locals (toNat_locals hlocals hsmall) (Nat.le_of_lt_succ (List.mem_range.1 hi))
  · exact .emitWith h.of_emit (fun _ => rfl) heffect (by rw [List.length_range]) (.last h rfl rfl rfl)

/-- An operation that nothing implements gets a body that is accepted. -/
theorem exists_stub (owner : String) (op : Method) : ∃ d, stub owner op = .ok d ∧
    d.code.Leads 0 0 d.code.instrs.size := by
  have hcontinues := continues_goUp (CodeBuilder.start (bodyName owner op.name op.params op.returns)
    op.params.length) op none
  obtain ⟨code, hcode, h, hsize, -⟩ := exists_finish_of_continues hcontinues
    (size_constants_goUp ..)
  refine ⟨_, bind_eq_ok.2 ⟨code, hcode, rfl⟩, ?_⟩
  change code.Leads 0 0 code.instrs.size
  rw [hsize]
  exact leads_goUp h nofun

/-- What an operation overrides gets an accessor that is accepted unless it has too many parameters. -/
theorem exists_accessor (owner : String) (op : Method) {target : Option Method}
    (htarget : ∀ m ∈ target, m.slot = op.slot) : ∃ d, accessor owner op target = .ok d ∧
      (op.params.length + 1 < 0x10000 → d.code.Leads 0 0 d.code.instrs.size) := by
  have hcontinues := continues_goUp (CodeBuilder.start (bodyName owner (Naming.accessor op.name op.returns)
    op.params op.returns) op.params.length) op target
  obtain ⟨code, hcode, h, hsize, hlocals⟩ := exists_finish_of_continues hcontinues
    (size_constants_goUp ..)
  refine ⟨_, bind_eq_ok.2 ⟨code, hcode, rfl⟩, fun hsmall => ?_⟩
  change code.Leads 0 0 code.instrs.size
  rw [hsize]
  exact leads_goUp h fun m hm => ⟨htarget m hm, toNat_locals hlocals hsmall⟩

/-- The code of a getter: it loads the receiver, reads the field and returns it. -/
def getterBuilder (owner : String) (p : PropertyPair) : CodeBuilder :=
  (((CodeBuilder.start (bodyName owner p.getter.name p.getter.params p.getter.returns) 0).load 0).getField
    p.fieldName).emit .ret

/-- The code of a setter: it loads the receiver and the value, and stores that in the field. -/
def setterBuilder (owner : String) (p : PropertyPair) : CodeBuilder :=
  ((((CodeBuilder.start (bodyName owner p.setter.name p.setter.params p.setter.returns) 1).load 0).load 1).putField
    p.fieldName).emit .retVoid

/-- A property can always be given a getter. -/
theorem exists_getterCode (owner : String) (p : PropertyPair) : ∃ code,
    propertyGetter owner p = .ok ⟨p.getter.name, p.getter.params, p.getter.returns, ownModifiers, code⟩ ∧
    (getterBuilder owner p).Within code ∧ code.instrs.size = 3 ∧ code.locals = 1 := by
  have hcontinues := (((Continues.refl (CodeBuilder.start (bodyName owner p.getter.name p.getter.params
    p.getter.returns) 0)).emit (.load 0)).emitWith (.field p.fieldName) .getField).emit .ret
  obtain ⟨code, hcode, hrest⟩ := exists_finish_of_continues hcontinues rfl
  exact ⟨code, bind_eq_ok.2 ⟨code, hcode, rfl⟩, hrest⟩

/-- A property can always be given a setter. -/
theorem exists_setterCode (owner : String) (p : PropertyPair) : ∃ code,
    propertySetter owner p = .ok ⟨p.setter.name, p.setter.params, p.setter.returns, ownModifiers, code⟩ ∧
    (setterBuilder owner p).Within code ∧ code.instrs.size = 4 ∧ code.locals = 2 := by
  have hcontinues := ((((Continues.refl (CodeBuilder.start (bodyName owner p.setter.name p.setter.params
    p.setter.returns) 1)).emit (.load 0)).emit (.load 1)).emitWith (.field p.fieldName) .putField).emit .retVoid
  obtain ⟨code, hcode, hrest⟩ := exists_finish_of_continues hcontinues rfl
  exact ⟨code, bind_eq_ok.2 ⟨code, hcode, rfl⟩, hrest⟩

/-- A property gets a getter that is accepted. -/
theorem exists_propertyGetter (owner : String) (p : PropertyPair) : ∃ d, propertyGetter owner p = .ok d ∧
    d.code.Leads 0 0 d.code.instrs.size := by
  obtain ⟨code, hcode, h, hsize, hlocals⟩ := exists_getterCode owner p
  have heffect (n : UInt16) (hn : code.constants[n.toNat]? = some (.field p.fieldName)) :
      code.stackEffect (.getField n) = .ok ⟨1, 1⟩ := by
    rw [Code.stackEffect, Code.constant, hn]
  have hreceiver : (0 : UInt16) < code.locals := by
    rw [hlocals]
    decide
  refine ⟨_, hcode, ?_⟩
  change code.Leads 0 0 code.instrs.size
  rw [hsize]
  exact .load hreceiver h.of_emit.of_emitWith (.emitWith h.of_emit (fun _ => rfl) heffect rfl
    (.last h rfl rfl rfl))

/-- A property gets a setter that is accepted. -/
theorem exists_propertySetter (owner : String) (p : PropertyPair) : ∃ d, propertySetter owner p = .ok d ∧
    d.code.Leads 0 0 d.code.instrs.size := by
  obtain ⟨code, hcode, h, hsize, hlocals⟩ := exists_setterCode owner p
  have heffect (n : UInt16) (hn : code.constants[n.toNat]? = some (.field p.fieldName)) :
      code.stackEffect (.putField n) = .ok ⟨2, 0⟩ := by
    rw [Code.stackEffect, Code.constant, hn]
  have hlocal : (0 : UInt16) < code.locals ∧ (1 : UInt16) < code.locals := by
    rw [hlocals]
    decide
  refine ⟨_, hcode, ?_⟩
  change code.Leads 0 0 code.instrs.size
  rw [hsize]
  have hput := h.of_emit
  exact .load hlocal.1 hput.of_emitWith.of_emit (.load hlocal.2 hput.of_emitWith
    (.emitWith hput (fun _ => rfl) heffect rfl (.last h rfl rfl rfl)))

/-! ## Dispatching bodies -/

/-- How many constants the dispatching body of a slot has: its number, the size of the array, one for each
parameter, the type of a result that is cast, and what it goes up to. -/
def thunkConstants (s : Slot) : Nat :=
  s.params.length + 3 + match s.returns with
    | .reference _ => 1
    | .array _ => 1
    | _ => 0

theorem size_constants_thunk (name : String) (index : Nat) (op : Method) (target : Option Method) :
    (thunkBuilder name index op target).constants.size = thunkConstants op.slot := by
  have hcall : (thunkCall name index op).constants.size = 2 + op.params.length :=
    size_constants_packArguments (thunkArray name index op) 0 op.params
  have hreturn : (thunkReturn name index op).constants.size + 1 = thunkConstants op.slot := by
    rw [thunkReturn, thunkConstants, Method.slot]
    cases hreturns : op.returns with
    | void | primitive _ =>
        change (thunkCall name index op).constants.size + 1 = _
        rw [hcall]
        dsimp only
        omega
    | reference _ | array _ =>
        change ((thunkCall name index op).constants.push _).size + 1 = _
        rw [Array.size_push, hcall]
        dsimp only
        omega
  rw [thunkBuilder, size_constants_goUp]
  exact hreturn

/-- The one branch of a dispatching body is marked, so it is finished exactly if it has not too many
constants. -/
theorem exists_thunkCode_iff : (∃ code, thunkCode name index op target = .ok code) ↔
    thunkConstants op.slot ≤ CodeBuilder.maxConstants := by
  rw [← size_constants_thunk name index op target, thunkCode_eq]
  constructor
  · rintro ⟨code, hcode⟩
    obtain ⟨_, -, hle, -⟩ := CodeBuilder.patched_of_finish hcode
    exact hle
  · intro hle
    refine CodeBuilder.exists_finish (fun x hx => ?_) hle
    have hcontinues := continues_thunk name index op target
    have hreturn := (continues_thunkReturn name index op).trans (continues_thunkCall name index op)
    rw [hcontinues.branches] at hx
    change x ∈ (thunkReturn name index op).branches at hx
    rw [hreturn.branches] at hx
    obtain rfl := List.mem_singleton.1 hx
    rw [hcontinues.markOf?_eq]
    exact ⟨_, rfl⟩

/-- Packing an argument leaves the stack as it was. -/
theorem leads_packArgument {i : Nat} {t : ValueType} (h : (packArgument b i t).Within code)
    (hlocal : CodeBuilder.param i < code.locals)
    (hrest : code.Leads (packArgument b i t).instrs.size (depth + 1) limit) :
    code.Leads b.instrs.size (depth + 1) limit := by
  have hload := h.of_continues (continues_packArgument_load b i t)
  refine .emit hload.of_emit.of_emitWith rfl rfl rfl ?_
  refine .pushInt hload.of_emit ?_
  refine .load hlocal hload ?_
  unfold packArgument at h hrest
  cases hkind : t.kind? with
  | none =>
      rw [hkind] at h hrest
      exact .emit h rfl rfl rfl hrest
  | some kind =>
      rw [hkind] at h hrest
      exact .emit h.of_emit rfl rfl rfl (.emit h rfl rfl rfl hrest)

theorem leads_packArguments {i : Nat} {params : List ValueType}
    (h : (packArguments b i params).Within code)
    (hlocals : ∀ j, i ≤ j → j < i + params.length → CodeBuilder.param j < code.locals)
    (hrest : code.Leads (packArguments b i params).instrs.size (depth + 1) limit) :
    code.Leads b.instrs.size (depth + 1) limit := by
  induction params generalizing b i with
  | nil => exact hrest
  | cons t params ih =>
      rw [packArguments] at h hrest
      rw [List.length_cons] at hlocals
      refine leads_packArgument (h.of_continues (continues_packArguments _ _ _))
        (hlocals i (Nat.le_refl _) (by omega)) ?_
      exact ih h (fun j hle hlt => hlocals j (by omega) (by omega)) hrest

/-- What is left of a dispatching body after the call ends with the result. -/
theorem leads_thunkReturn (h : (thunkReturn name index op).Within code) :
    code.Leads (thunkCall name index op).instrs.size (depth + 1) (thunkReturn name index op).instrs.size := by
  have heffect (t : ValueType) (n : UInt16) (hn : code.constants[n.toNat]? = some (.type t)) :
      code.stackEffect (.checkCast n) = .ok ⟨1, 1⟩ := by
    rw [Code.stackEffect, Code.constant, hn]
  rw [thunkReturn] at h ⊢
  cases hreturns : op.returns with
  | void =>
      rw [hreturns] at h
      exact .emit h.of_emit rfl rfl rfl (.last h rfl rfl rfl)
  | primitive kind =>
      rw [hreturns] at h
      exact .emit h.of_emit rfl rfl rfl (.last h rfl rfl rfl)
  | reference _ | array _ =>
      rw [hreturns] at h
      exact .emitWith (Within.of_emit h) (fun _ => rfl) (heffect _) rfl (.last h rfl rfl rfl)

/-- A dispatching body that is finished is accepted: without a dispatcher control goes up, and else it ends
before that. -/
theorem leads_thunk (h : thunkCode name index op target = .ok code)
    (htarget : ∀ m ∈ target, m.slot = op.slot) : code.Leads 0 0 code.instrs.size := by
  have hlocals := locals_of_thunk h
  have hthunk := within_thunk h
  have hcall := within_thunkCall h
  have hpacked : (packArguments (thunkArray name index op) 0 op.params).Within code := hcall.of_emit
  have harray := within_thunkArray h
  have hstart := within_thunkStart h
  have hreceiver : (0 : UInt16) < code.locals := ofNat_lt_locals hlocals (Nat.zero_le _)
  obtain ⟨t, hbranch, ht⟩ := branch_of_thunk h
  have hsize : code.instrs.size = (thunkBuilder name index op target).instrs.size :=
    CodeBuilder.size_of_finish h
  have hup : (((thunkReturn name index op).markLabel 0).emit .pop).Within code :=
    hthunk.of_continues (continues_goUp _ op target)
  refine .emit hstart.of_emit rfl rfl rfl (.emit hstart rfl rfl rfl ?_)
  have heffect : code.stackEffect (.ifNull t) = .ok ⟨1, 0⟩ := rfl
  refine .branch hbranch rfl (Code.Leads.depthAfter_eq heffect 1) ?_ ?_
  · rw [ht]
    have hnew := harray.of_emit
    refine .load hreceiver hnew.of_emitWith.of_emit.of_emitWith.of_emit ?_
    refine .emit hnew.of_emitWith.of_emit.of_emitWith rfl rfl rfl ?_
    refine .pushInt hnew.of_emitWith.of_emit ?_
    refine .emit hnew.of_emitWith rfl rfl rfl ?_
    refine .pushInt hnew ?_
    refine .emit harray rfl rfl rfl ?_
    refine leads_packArguments hpacked (fun j _ hlt => ?_) ?_
    · exact ofNat_lt_locals hlocals (by omega)
    · exact .emit hcall rfl rfl rfl (leads_thunkReturn (within_thunkReturn h))
  · rw [ht, hsize]
    change code.Leads ((thunkReturn name index op).markLabel 0).instrs.size _ _
    exact .emit hup rfl rfl rfl (leads_goUp hthunk fun m hm => ⟨htarget m hm, hlocals⟩)

end Layer

end Interpose
