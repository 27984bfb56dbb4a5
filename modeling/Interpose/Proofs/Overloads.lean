import Interpose.Proofs.Lending
import Interpose.Proofs.Searches

/-!
# Overloads

A call by name on an object of a subtype looks at the thunks of its proxy first, in the order of their
slots, and then at what the base declares. So it can reach another overload than the same call on the
base reaches.
-/

namespace Interpose

open Interpose.Action (ComesTo)

/-! ## Objects and overloads -/

/-- Whether no script object is asked about the calls of an object of a subtype: the subtype has no
dispatcher, or they go to a platform and the object is under construction or bound to nothing. -/
inductive World.Unasked (w : World) (t : HostType) (this : ObjectRef) : Prop where
  | empty (hnone : w.dispatcherOf? t.id = none)
    (htable : ∀ g, t.generated = some g →
      w.arrays[g.table.index]? = some ((Array.range g.operations.length).map .operation))
  | free {p : PlatformId} (hroutes : w.Routes p t)
    (hfree : (w.platform p).constructing = some this ∨ w.Unbound this)

/-- Whether the calls of an object by a name go to a platform on which the object is bound to a script
object that leaves them to a base. -/
def World.LeavesCalls (w : World) (base t : HostType) (this : ObjectRef) (name : String) (count : Nat) :
    Prop :=
  ∃ p id i, w.Routes p t ∧ w.Bound p this id i ∧ i.script.Leaves w.types base.id name count

/-- An overload without an accessor is called by its slot, on the arguments as they were before they were
boxed. -/
theorem Runner.comesTo_callOverload_of_error {run : Runner} {w : World} {p : PlatformId} {this : ObjectRef}
    {source m : Method} {args : List Value} {e : HostError} {y : Action Value}
    {f : TypeTable → Value → Except HostError Value}
    (hsound : (w.platform p).accessors.Sound w.types)
    (hnone : w.types.findAccessor this.cls source = .error e)
    (hm : w.types.findVirtual? this.cls source.slot = some m)
    (haccepts : List.Forall₂ (fun t v => w.types.accepts t v = true) source.params args)
    (h : ∀ w', w.Aside w' → ComesTo w' (run (.method m this args)) y f) :
    ComesTo w (run.callOverload p this source (args.map Value.box)) y f := by
  have houtcome : Action.outcome (resolve p this.cls source) w = (.ok (.error e), w) := by
    rw [Action.outcome, resolve_of_error hsound hnone]
  refine .after houtcome (.refl w) rfl ?_
  have hcoerce : Action.withTypes (fun types => types.coerceArgs source.params (args.map Value.box)) w =
      (.ok args, w) := by
    rw [Action.withTypes, TypeTable.coerceArgs_box haccepts]
    rfl
  refine .after hcoerce (.refl w) rfl (.of_eq ?_ (h w (.refl w)))
  rw [invoke, Action.bind_apply_ok (Action.get_apply w), hm]

/-- A call by name runs what it finds. -/
theorem Runner.call_of_found (run : Runner) {w : World} {this : ObjectRef} {m : Method} {name : String}
    {args : List Value} (h : w.types.findMethodFor? this.cls name args = some m) :
    run.call this name args w = run (.method m this args) w := by
  rw [call, Action.bind_apply_ok (Action.get_apply w)]
  simp only [h]

/-- So it runs the first operation that it can reach. -/
theorem Runner.call_of_find? {run : Runner} {w : World} {this : ObjectRef} {m : Method} {name : String}
    {args : List Value}
    (h : (w.types.methodsOf this.cls).find? (w.types.reachedWith name args) = some m) :
    run.call this name args w = run (.method m this args) w :=
  run.call_of_found (TypeTable.findMethodFor?_of_find? h)

namespace World.Stands

variable {e : Emitter} {older : TypeTable} {w w₀ : World} {base b t : HostType}
  {interfaces properties : List TypeId} {this : ObjectRef} {n : Nat} {p : PlatformId} {k m thunk : Method}
  {args : List Value} {steps : Nat}

/-- A call by name that operations of the table can answer runs the thunk of the first of these. -/
theorem call_of_some {operations : List Method} {name : String}
    (h : w.Stands e older w₀ base [] properties b t)
    (hoperations : (w.types.proxy? t.id).map (·.operations) = some operations)
    (hlength : operations.length ≤ 0x80000000)
    (hsearch : Emitter.Searches operations (w.types.reachedWith name args)) (hcls : this.cls = t.id)
    (hk : operations.find? (w.types.reachedWith name args) = some k) :
    ∃ n thunk, (w.types.proxy? t.id).bind (·.operations[n]?) = some k ∧ n < 0x80000000 ∧
      t.methods[2 * n]? = some thunk ∧
      ∀ run : Runner, run.call this name args w = run (.method thunk this args) w := by
  obtain ⟨n, thunk, hn, hthunk, hreached⟩ := h.find?_methodsOf_of_some hoperations hsearch hk
  obtain ⟨g, hg, rfl⟩ := Option.map_eq_some_iff.1 hoperations
  rw [← hcls] at hreached
  have hlt := Nat.lt_of_lt_of_le (List.getElem?_eq_some_iff.1 hn).1 hlength
  refine ⟨n, thunk, ?_, hlt, hthunk, fun run => Runner.call_of_find? hreached⟩
  rw [hg]
  exact hn

/-- Where no script object is asked, a thunk runs the body that the base lends. -/
theorem comesTo_thunk_of_unasked (h : w.Stands e older w₀ base interfaces properties b t)
    (hk : (w.types.proxy? t.id).bind (·.operations[n]?) = some k)
    (hthunk : t.methods[2 * n]? = some thunk) (hn : n < 0x80000000) (hcls : this.cls = t.id)
    (hm : w.types.findVirtual? base.id k.slot = some m)
    (hlent : w.Lent base t properties steps this args m)
    (haccepts : List.Forall₂ (fun t v => w.types.accepts t v = true) k.params args)
    (hunasked : w.Unasked t this) (hsteps : 6 * k.params.length + 16 ≤ steps) (depth : Nat) :
    ∃ d, depth ≤ d ∧ ComesTo w (exec steps (depth + 3) (.method thunk this args))
      (exec steps d (.method m this args)) fun _ v => .ok v := by
  have hlisted := h.getElem?_operations hk
  have htarget := h.superTarget?_eq (List.mem_of_getElem? hlisted) hm hlent.concrete hlent.lends
  have hslot := TypeTable.slot_of_findVirtual? hm
  obtain ⟨-, hreturns, -⟩ := Slot.mk.inj hslot
  cases hunasked with
  | empty hnone _ =>
      have hbelow : t ∈ w.types.lineage this.cls := hcls ▸ TypeTable.mem_lineage h.lookup
      have hcomes := h.proxy.comesTo_thunk_of_none hlisted hthunk h.lookup hnone hbelow haccepts.length_eq.symm
        hsteps (depth + 2)
      rw [htarget] at hcomes
      refine ⟨depth + 2, by omega, hcomes.congr fun w' v after haside hv => ?_⟩
      rw [← hreturns, TypeTable.result_of_accepts (hlent.returns _ w' v after haside hv)]
  | free hroutes hfree =>
      obtain ⟨j, op, own, hop, hopslot, hown, hfound⟩ := hlent.accessor
      obtain rfl := h.proxy.index_eq hlisted (h.getElem?_operations hop) (hopslot.trans hslot)
      rw [TypeTable.findAccessor_congr hslot] at hfound
      have hcomes := h.proxy.comesTo_thunk_of_free hlisted hthunk hn hown hroutes hcls hfree haccepts
        hfound hsteps depth
      rw [htarget] at hcomes
      refine ⟨depth, Nat.le_refl _, hcomes.congr fun w' v after haside hv => ?_⟩
      have haccepted := hlent.returns _ w' v after haside hv
      rw [← hreturns, TypeTable.result_of_accepts haccepted]
      exact TypeTable.unboxOrCast_box haccepted

/-- An overload of what was called comes to its body, if the base lends that or the subtype has no operation
of its slot. -/
theorem comesTo_callOverload_of_base {operations : List Method} (h : w.Stands e older w₀ base [] [] b t)
    (hoperations : (w.types.proxy? t.id).map (·.operations) = some operations)
    (hnames : ∀ op ∈ operations, Naming.accessor op.name op.returns ≠ m.name)
    (hcapability : m.name ≠ TypeDecl.instanceName)
    (hsuper : base.isInterface = true → base.superclass = none)
    (hroutes : w.Routes p t) (hcls : this.cls = t.id)
    (hm : w.types.findVirtual? base.id m.slot = some m)
    (hlent : w.Lent base t [] steps this args m ∨ (∀ op ∈ operations, op.slot ≠ m.slot) ∧
      ∃ e, w.types.findAccessor t.id m = .error e)
    (haccepts : List.Forall₂ (fun t v => w.types.accepts t v = true) m.params args)
    (hsteps : m.params.length + 3 ≤ steps) (depth : Nat) :
    ∃ d, depth ≤ d ∧ ∀ w', w.Aside w' →
      ComesTo w' ((exec steps (depth + 1)).callOverload p this m (args.map Value.box))
        (exec steps d (.method m this args)) fun _ v => .ok v := by
  rcases hlent with hlent | ⟨hnone, e, herror⟩
  · exact ⟨depth, Nat.le_refl _, fun w' haside => (h.aside haside).comesTo_callOverload
      (hroutes.aside haside) hcls (haside.types ▸ hm) (hlent.aside haside) (haside.types ▸ haccepts)
      hsteps depth⟩
  · have hfree : operations.find? (fun n => n.isVirtual && n.occupies m.slot) = none := by
      rw [List.find?_eq_none]
      intro op hop hreached
      exact hnone op hop (beq_iff_eq.1 (Bool.and_eq_true_iff.1 hreached).2)
    have hreached := h.find?_methodsOf_of_none hoperations hsuper
      (Emitter.Searches.occupies hnames hcapability) hfree
    rw [← hcls] at herror hreached
    refine ⟨depth + 1, Nat.le_succ _, fun w' haside => ?_⟩
    refine Runner.comesTo_callOverload_of_error (hroutes.aside haside).accessors (haside.types ▸ herror)
      ?_ (haside.types ▸ haccepts) fun w'' _ => .refl (held_exec steps (depth + 1) _ w'')
    rw [haside.types]
    exact hreached.trans hm

end World.Stands

/-! ## Calls by name -/

/-- **Calls by name on a subtype.** Let a call by name on a base reach an operation with a body whose
parameters accept the arguments. If no operation of the table can answer the call, it reaches the same
operation on the subtype. Otherwise it reaches the thunk of the first operation of the table that can.
If that one is of the same slot, the same body runs on the same arguments, as long as no script object
takes the call. If it is of another slot, its own body runs where no script object is asked. Where one
is asked and leaves the call to the base, the body runs that the call on the base reaches, and what it
returns is converted to what the other operation returns. -/
theorem World.call_overloaded {w : World} {base t : HostType} {operations : List Method}
    {this : ObjectRef} {m : Method} {name : String} {args : List Value} {steps : Nat}
    (ht : w.HasSubtype base [] [] t) (hcls : this.cls = t.id)
    (hoperations : (w.types.proxy? t.id).map (·.operations) = some operations)
    (hlength : operations.length ≤ 0x80000000)
    (hnames : ∀ op ∈ operations, Naming.accessor op.name op.returns ≠ name)
    (hcapability : name ≠ TypeDecl.instanceName)
    (hsuper : base.isInterface = true → base.superclass = none)
    (hm : w.types.findMethodFor? base.id name args = some m)
    (haccepts : List.Forall₂ (fun t v => w.types.accepts t v = true) m.params args)
    (hsteps : 6 * args.length + 16 ≤ steps) (depth : Nat) :
    (operations.find? (w.types.reachedWith name args) = none →
      (exec steps (depth + 3)).call this name args w = exec steps (depth + 3) (.method m this args) w) ∧
    ∀ k, operations.find? (w.types.reachedWith name args) = some k →
      (k.slot = m.slot → w.Lent base t [] steps this args m →
        w.Unasked t this ∨ k.declaring ≠ capabilityName ∧ w.LeavesCalls base t this name args.length →
        ∃ d, depth ≤ d ∧ ComesTo w ((exec steps (depth + 3)).call this name args)
          (exec steps d (.method m this args)) fun _ v => .ok v) ∧
      (k.slot ≠ m.slot → List.Forall₂ (fun t v => w.types.accepts t v = true) k.params args →
        (∀ m', w.types.findVirtual? base.id k.slot = some m' → w.Lent base t [] steps this args m' →
          w.Unasked t this →
          ∃ d, depth ≤ d ∧ ComesTo w ((exec steps (depth + 3)).call this name args)
            (exec steps d (.method m' this args)) fun _ v => .ok v) ∧
        (k.declaring ≠ capabilityName → w.LeavesCalls base t this name args.length →
          m.isAbstract = false → (w.Lent base t [] steps this args m ∨
            (∀ op ∈ operations, op.slot ≠ m.slot) ∧ ∃ e, w.types.findAccessor t.id m = .error e) →
          ∃ d, depth ≤ d ∧ ComesTo w ((exec steps (depth + 3)).call this name args)
            (exec steps d (.method m this args)) fun types v => types.unboxOrCast k.returns v.box)) := by
  obtain ⟨e, older, w₀, b, h⟩ := ht.stands
  have hfirst := TypeTable.find?_of_findMethodFor? hm (TypeTable.acceptsArgs_of_accepts haccepts)
  have hsearch : Emitter.Searches operations (w.types.reachedWith name args) :=
    .reachedWith hnames hcapability
  have hvirtual := TypeTable.findVirtual?_of_find? hfirst
  have hparams := haccepts.length_eq
  refine ⟨fun hnone => ?_, fun k hk => ?_⟩
  · -- nothing of the table answers, so the same operation is found on the subtype
    refine Runner.call_of_find? ?_
    rw [hcls]
    exact (h.find?_methodsOf_of_none hoperations hsuper hsearch hnone).trans hfirst
  obtain ⟨n, thunk, hop, hlt, hthunk, hcall⟩ := h.call_of_some hoperations hlength hsearch hcls hk
  have hlisted := h.getElem?_operations hop
  have hkname : k.name = name := TypeTable.name_of_reachedWith (List.find?_some hk)
  have hmname : m.name = name := TypeTable.name_of_reachedWith (List.find?_some hfirst)
  refine ⟨fun hslot hlent hcase => ?_, fun hslot hkaccepts => ⟨fun m' hm' hlent hunasked => ?_,
    fun hdeclaring ⟨p, id, i, hroutes, hbound, hleaves⟩ hconcrete hlent => ?_⟩⟩
  · -- the thunk is that of the slot that the call on the base reaches
    obtain ⟨-, hkreturns, hkparams⟩ := Slot.mk.inj hslot
    rw [← hkparams] at haccepts hparams
    rcases hcase with hunasked | ⟨hdeclaring, p, id, i, hroutes, hbound, hleaves⟩
    · obtain ⟨d, hd, hcomes⟩ := h.comesTo_thunk_of_unasked hop hthunk hlt hcls (hslot ▸ hvirtual) hlent
        haccepts hunasked (by omega) depth
      exact ⟨d, hd, .of_eq (hcall _) hcomes⟩
    · have hresolve := hleaves.resolve? hfirst
      rw [← hkname] at hresolve
      refine ⟨depth, Nat.le_refl _, .of_eq (hcall _) ?_⟩
      refine (h.proxy.comesTo_thunk_of_bound (f := fun _ v => .ok v) hlisted hthunk hlt hdeclaring
        hroutes hcls hbound haccepts hresolve (by omega) depth fun w' haside => ?_).congr
          fun w' v after haside hv => ?_
      · rw [if_neg (Bool.eq_false_iff.1 hlent.concrete), if_pos hslot.symm]
        exact (h.aside haside).comesTo_overridden (hroutes.aside haside) hcls (haside.types ▸ hvirtual)
          (hlent.aside haside) hslot (haside.types ▸ haccepts) (by omega) depth
      · have haccepted := hlent.returns _ w' v after haside hv
        rw [hkreturns]
        exact TypeTable.unboxOrCast_box haccepted
  · -- the thunk is that of another slot, and nobody is asked
    have hkparams := hkaccepts.length_eq
    obtain ⟨d, hd, hcomes⟩ := h.comesTo_thunk_of_unasked hop hthunk hlt hcls hm' hlent hkaccepts
      hunasked (by omega) depth
    exact ⟨d, hd, .of_eq (hcall _) hcomes⟩
  · -- it is asked by name, and leaves the call to what that reaches on the base
    have hresolve := hleaves.resolve? hfirst
    have hkparams := hkaccepts.length_eq
    rw [← hkname] at hresolve
    rw [← hmname] at hnames hcapability
    obtain ⟨d, hd, hcomes⟩ := h.comesTo_callOverload_of_base hoperations hnames hcapability hsuper hroutes hcls
      hvirtual hlent haccepts (by omega) depth
    refine ⟨d, hd, .of_eq (hcall _) ?_⟩
    refine h.proxy.comesTo_thunk_of_bound (f := fun _ v => .ok v) hlisted hthunk hlt hdeclaring
      hroutes hcls hbound hkaccepts hresolve (by omega) depth fun w' haside => ?_
    rw [if_neg (Bool.eq_false_iff.1 hconcrete), if_neg (Ne.symm hslot)]
    exact hcomes w' haside

/-- A call of the overloads of a gauge reaches on the subtype that for anything. -/
theorem World.HasGauge.find?_operations {w : World} {t : HostType} {methods : List Method}
    {binding : Binding} (h : w.HasGauge methods binding t) {v : Value}
    (hv : w.types.acceptsArgs [.object] [v] = true) :
    ∃ operations k, (w.types.proxy? t.id).map (·.operations) = some operations ∧
      operations.length ≤ 0x80000000 ∧
      (∀ op ∈ operations, Naming.accessor op.name op.returns ≠ "measure") ∧
      operations.find? (w.types.reachedWith "measure" [v]) = some k ∧
      k.slot = measureObject.slot ∧ k.declaring ≠ capabilityName := by
  obtain ⟨a, b, c, hoperations, ha, ⟨hb, hvirtual, hdeclaring⟩, ⟨hc, -⟩, -⟩ := h.operations
  obtain ⟨haname, hareturns, -⟩ := Slot.mk.inj ha
  obtain ⟨hbname, hbreturns, hbparams⟩ := Slot.mk.inj hb
  obtain ⟨hcname, hcreturns, -⟩ := Slot.mk.inj hc
  refine ⟨_, b, hoperations, (by decide : 3 ≤ 0x80000000), ?_, ?_, hb, hdeclaring⟩
  · have hmark : Naming.accessor "measure" (.primitive .int) ≠ "measure" := by decide +kernel
    intro op hop
    simp only [List.mem_cons, List.not_mem_nil, or_false] at hop
    rcases hop with rfl | rfl | rfl
    · rw [haname, hareturns]
      decide +kernel
    · rw [hbname, hbreturns]
      exact hmark
    · rw [hcname, hcreturns]
      exact hmark
  · have hskip : w.types.reachedWith "measure" [v] a = false := by
      rw [TypeTable.reachedWith, TypeTable.answersWith, haname]
      exact Bool.and_false _
    have htake : w.types.reachedWith "measure" [v] b = true := by
      rw [TypeTable.reachedWith, TypeTable.answersWith, hvirtual, hbname, hbparams]
      exact hv
    rw [List.find?_cons_of_neg (Bool.eq_false_iff.1 hskip), List.find?_cons_of_pos htake]

/-- What a gauge with two overloads does with a number is what its subtype does with it, whose script has
no functions. -/
theorem World.call_overloaded_gauge : ∃ (w : World) (t : HostType),
    w.HasGauge [measureString, measureObject] (.bound ⟨0⟩) t ∧
    ((exec 22 4).call gaugeObject "measure" [.boxed (.int 7)] w).1 = .ok (.prim (.int 0)) := by
  obtain ⟨w, t, h⟩ := exists_hasGauge (.bound ⟨0⟩) (.inr rfl)
  obtain ⟨operations, k, hoperations, hlength, hnames, hk, hslot, hdeclaring⟩ :=
    h.find?_operations (v := .boxed (.int 7)) rfl
  have hm : w.types.findMethodFor? (gauge [measureString, measureObject]).id "measure"
      [.boxed (.int 7)] = some measureObject := by
    rw [TypeTable.findMethodFor?, h.methods]
    rfl
  obtain ⟨-, hfirst⟩ := World.call_overloaded h.subtype h.cls hoperations hlength hnames (by decide)
    (fun hinterface => by cases hinterface) hm (.cons rfl .nil) (Nat.le_refl 22) 1
  obtain ⟨d, hd, hcomes⟩ := (hfirst k hk).1 hslot (h.lent (.inr rfl) _)
    (.inr ⟨hdeclaring, _, _, _, h.routes, h.bound, h.leaves _ _⟩)
  refine ⟨w, t, h, hcomes.fst_eq_ok (fun w' _ => ?_) fun _ => rfl⟩
  obtain ⟨d, rfl⟩ := Nat.exists_eq_add_of_le' hd
  rfl

/-- The same call for a string reaches on a gauge the overload for strings, and on an object of the subtype
that is bound to nothing the overload for anything, which is listed first. -/
theorem World.call_overloaded_differs : ∃ (w : World) (t : HostType),
    w.HasGauge [measureString, measureObject] .unbound t ∧ w.Unbound gaugeObject ∧
    w.types.findMethodFor? (gauge [measureString, measureObject]).id "measure" [.str "x"] =
      some measureString ∧
    (exec 22 4 (.method measureString gaugeObject [.str "x"]) w).1 = .ok (.prim (.int 1)) ∧
    ((exec 22 4).call gaugeObject "measure" [.str "x"] w).1 = .ok (.prim (.int 0)) := by
  obtain ⟨w, t, h⟩ := exists_hasGauge .unbound (.inr rfl)
  obtain ⟨operations, k, hoperations, hlength, hnames, hk, hslot, hdeclaring⟩ :=
    h.find?_operations (v := .str "x") rfl
  have hunbound : w.Unbound gaugeObject := by
    rw [World.Unbound, h.objects]
    rfl
  have hm : w.types.findMethodFor? (gauge [measureString, measureObject]).id "measure" [.str "x"] =
      some measureString := by
    rw [TypeTable.findMethodFor?, h.methods]
    rfl
  have hvirtual : w.types.findVirtual? (gauge [measureString, measureObject]).id k.slot =
      some measureObject := by
    rw [TypeTable.findVirtual?, h.methods, hslot]
    rfl
  obtain ⟨-, -, hparams⟩ := Slot.mk.inj hslot
  obtain ⟨e, older, w₀, b, hs⟩ := h.subtype.stands
  obtain ⟨n, thunk, hop, hlt, hthunk, hcall⟩ := hs.call_of_some hoperations hlength
    (.reachedWith hnames (by decide)) h.cls hk
  obtain ⟨d, hd, hcomes⟩ := hs.comesTo_thunk_of_unasked hop hthunk hlt h.cls hvirtual
    (h.lent (.inr rfl) (.str "x")) (hparams ▸ .cons rfl .nil) (.free h.routes (.inr hunbound))
    (hparams ▸ Nat.le_refl 22) 1
  refine ⟨w, t, h, hunbound, hm, rfl, ?_⟩
  rw [hcall]
  refine hcomes.fst_eq_ok (fun w' _ => ?_) fun _ => rfl
  obtain ⟨d, rfl⟩ := Nat.exists_eq_add_of_le' hd
  rfl

end Interpose
