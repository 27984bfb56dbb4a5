import Interpose.Proofs.Subtypes

/-!
# Bodies that a base lends

What an operation overrides is run through an accessor, on arguments that are boxed and taken out of their
boxes again. That comes to the body that the base has for the slot of the operation, as long as the
accessor that is found is the one that was made for it.
-/

namespace Interpose

open Interpose.Action (ComesTo)

/-! ## Values that are accepted -/

namespace TypeTable

variable {types : TypeTable} {t : ValueType} {v : Value}

/-- A value that a type accepts can be passed for a parameter of the type. -/
theorem acceptsArgument_of_accepts (h : types.accepts t v = true) : types.acceptsArgument t v = true := by
  cases t with
  | void =>
      cases v <;> first | rfl | simp [accepts] at h
  | primitive k =>
      cases v <;> first | exact h | simp [accepts] at h
  | reference name =>
      have hbox : v.box = v := box_of_accepts h
      exact (congrArg _ hbox).trans h
  | array item =>
      have hbox : v.box = v := box_of_accepts h
      exact (congrArg _ hbox).trans h

/-- Arguments that parameters accept can be passed for them. -/
theorem acceptsArgs_of_accepts {params : List ValueType} {args : List Value}
    (h : List.Forall₂ (fun t v => types.accepts t v = true) params args) :
    types.acceptsArgs params args = true := by
  rw [acceptsArgs, Bool.and_eq_true, beq_iff_eq]
  refine ⟨h.length_eq, List.all_eq_true.2 fun pair hmem => acceptsArgument_of_accepts ?_⟩
  exact (List.forall₂_iff_zip.1 h).2 hmem

/-- A result that a type accepts is nothing if the type is that of no result. -/
theorem result_of_accepts (h : types.accepts t v = true) : (if t.isVoid then Value.void else v) = v := by
  cases t with
  | void =>
      cases v <;> first | rfl | simp [accepts] at h
  | primitive _ | reference _ | array _ => rfl

end TypeTable

/-! ## Overloads that answer a call -/

namespace Runner

variable {run : Runner} {w : World} {p : PlatformId} {this : ObjectRef} {source a : Method}
  {args : List Value}

/-- An overload with an accessor runs what it overrides. -/
theorem callOverload_of_found (hsound : (w.platform p).accessors.Sound w.types)
    (hfound : w.types.findAccessor this.cls source = .ok a) (args : List Value) :
    run.callOverload p this source args w = run.overridden p this source args w := by
  obtain ⟨known, w', hresolve, -⟩ := resolve_apply hsound hfound
  have houtcome : Action.outcome (resolve p this.cls source) w = (.ok (.ok known), w') := by
    rw [Action.outcome, hresolve]
  rw [callOverload, Action.bind_apply_ok houtcome, overridden, Action.bind_apply_ok hresolve]

end Runner

/-! ## Bodies that a base lends -/

/-- Whether the body of an operation runs when an object goes up to it: the base lends it, the accessor
that is found for it is the one that was made for it, and its type accepts what it returns. -/
structure World.Lent (w : World) (base t : HostType) (properties : List TypeId) (steps : Nat)
    (this : ObjectRef) (args : List Value) (m : Method) : Prop where
  concrete : m.isAbstract = false
  lends : w.types.Lends base properties m
  accessor : ∃ n op own, (w.types.proxy? t.id).bind (·.operations[n]?) = some op ∧ op.slot = m.slot ∧
    t.methods[2 * n + 1]? = some own ∧ w.types.findAccessor t.id m = .ok own
  returns : ∀ d w' v after, w.Aside w' → exec steps d (.method m this args) w' = (.ok v, after) →
    after.types.accepts m.returns v = true

theorem World.Lent.aside {w w' : World} {base t : HostType} {properties : List TypeId} {steps : Nat}
    {this : ObjectRef} {args : List Value} {m : Method} (h : w.Lent base t properties steps this args m)
    (haside : w.Aside w') : w'.Lent base t properties steps this args m where
  concrete := h.concrete
  lends := haside.types ▸ h.lends
  accessor := haside.types ▸ h.accessor
  returns d w'' v after h' := h.returns d w'' v after (haside.trans h')

namespace World.Stands

variable {e : Emitter} {older : TypeTable} {w w₀ : World} {base b t : HostType}
  {interfaces properties : List TypeId} {this : ObjectRef} {p : PlatformId} {k m : Method}
  {args : List Value} {steps : Nat}

/-- What an operation of the table overrides comes to the body that the base lends for its slot. -/
theorem comesTo_overridden (h : w.Stands e older w₀ base interfaces properties b t)
    (hroutes : w.Routes p t) (hcls : this.cls = t.id)
    (hm : w.types.findVirtual? base.id m.slot = some m)
    (hlent : w.Lent base t properties steps this args m) (hslot : k.slot = m.slot)
    (haccepts : List.Forall₂ (fun t v => w.types.accepts t v = true) k.params args)
    (hsteps : k.params.length + 3 ≤ steps) (depth : Nat) :
    ComesTo w ((exec steps (depth + 1)).overridden p this k (args.map Value.box))
      (exec steps depth (.method m this args)) fun _ v => .ok v := by
  obtain ⟨n, op, own, hop, hopslot, hown, hfound⟩ := hlent.accessor
  have hlisted := h.getElem?_operations hop
  rw [← hopslot] at hm
  have htarget := h.superTarget?_eq (List.mem_of_getElem? hlisted) hm hlent.concrete hlent.lends
  obtain ⟨-, hreturns, -⟩ := Slot.mk.inj hopslot
  obtain ⟨-, -, hparams⟩ := Slot.mk.inj (hopslot.trans hslot.symm)
  rw [← hcls, ← TypeTable.findAccessor_congr hslot] at hfound
  refine Runner.comesTo_overridden hroutes.accessors hfound haccepts fun w' haside => ?_
  rw [← hparams] at hsteps haccepts
  have hbelow : t ∈ w'.types.lineage this.cls := hcls ▸ haside.types ▸ TypeTable.mem_lineage hroutes.lookup
  have hcomes := h.proxy.comesTo_accessor hlisted hown hbelow haccepts.length_eq.symm hsteps depth
  rw [htarget] at hcomes
  refine hcomes.congr fun w'' v after haside' hv => ?_
  have haccepted := hlent.returns _ w'' v after (haside.trans haside') hv
  rw [hreturns, TypeTable.result_of_accepts haccepted]

/-- An overload of what was called comes to the body that the base lends. -/
theorem comesTo_callOverload (h : w.Stands e older w₀ base interfaces properties b t)
    (hroutes : w.Routes p t) (hcls : this.cls = t.id)
    (hm : w.types.findVirtual? base.id m.slot = some m)
    (hlent : w.Lent base t properties steps this args m)
    (haccepts : List.Forall₂ (fun t v => w.types.accepts t v = true) m.params args)
    (hsteps : m.params.length + 3 ≤ steps) (depth : Nat) :
    ComesTo w ((exec steps (depth + 1)).callOverload p this m (args.map Value.box))
      (exec steps depth (.method m this args)) fun _ v => .ok v := by
  obtain ⟨-, -, own, -, -, -, hfound⟩ := hlent.accessor
  rw [← hcls] at hfound
  exact .of_eq (Runner.callOverload_of_found hroutes.accessors hfound _)
    (h.comesTo_overridden hroutes hcls hm hlent rfl haccepts hsteps depth)

end World.Stands

namespace World.HasGauge

variable {w : World} {t : HostType} {methods : List Method} {binding : Binding} {m : Method}

/-- The class lends its overloads that have a body. -/
theorem lent (h : w.HasGauge methods binding t) (hm : m = measureString ∨ m = measureObject) (v : Value) :
    w.Lent (gauge methods) t [] 22 gaugeObject [v] m where
  concrete := by rcases hm with rfl | rfl <;> rfl
  lends := ⟨by rcases hm with rfl | rfl <;> rfl, .inr ⟨rfl, nofun⟩⟩
  accessor := by
    obtain ⟨a, b, c, hoperations, -, ⟨hb, -⟩, ⟨hc, -⟩, -⟩ := h.operations
    obtain ⟨g, hg, hall⟩ := Option.map_eq_some_iff.1 hoperations
    have hop (n : Nat) : (w.types.proxy? t.id).bind (·.operations[n]?) = [a, b, c][n]? := by
      rw [hg, Option.bind_some, hall]
    rcases hm with rfl | rfl
    · obtain ⟨own, hown, hfound⟩ := h.findAccessor_eq (hop 2) (by decide)
      exact ⟨2, c, own, hop 2, hc, hown, TypeTable.findAccessor_congr hc ▸ hfound⟩
    · obtain ⟨own, hown, hfound⟩ := h.findAccessor_eq (hop 1) (by decide)
      exact ⟨1, b, own, hop 1, hb, hown, TypeTable.findAccessor_congr hb ▸ hfound⟩
  returns d w' v' after _ hv := by
    rcases hm with rfl | rfl <;> cases d <;> cases hv <;> rfl

/-- The overload for strings is the last operation of the table, and it accepts strings. -/
theorem operation_string (h : w.HasGauge methods binding t) (text : String) :
    ∃ op, (w.types.proxy? t.id).bind (·.operations[2]?) = some op ∧ op.slot = measureString.slot ∧
      op.isVirtual = true ∧ op.declaring ≠ capabilityName ∧ op.declaring = "Gauge" ∧
      List.Forall₂ (fun t v => w.types.accepts t v = true) op.params [.str text] ∧
      6 * op.params.length + 16 ≤ 22 := by
  obtain ⟨_, _, c, hoperations, -, -, ⟨hslot, hvirtual, hcapability⟩, hdeclaring⟩ := h.operations
  obtain ⟨g, hg, hall⟩ := Option.map_eq_some_iff.1 hoperations
  obtain ⟨-, -, hparams⟩ := Slot.mk.inj hslot
  refine ⟨c, ?_, hslot, hvirtual, hcapability, hdeclaring, ?_, ?_⟩
  · rw [hg, Option.bind_some, hall]
    rfl
  · rw [hparams]
    exact .cons rfl .nil
  · rw [hparams]
    decide

end World.HasGauge

end Interpose
