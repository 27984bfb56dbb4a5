import Interpose.Proofs.Lending

/-!
# Calls that scripts leave to the host

A virtual call of a slot on a bound object is resolved by the name and the arguments, not by the slot. So
what answers a call that the script does not take is the first operation of the base that accepts the
arguments, which may be another overload than the one that was called.
-/

namespace Interpose

open Interpose.Action (ComesTo)

/-! ## Calls -/

section

variable {w : World} {base t : HostType} {interfaces properties : List TypeId} {p : PlatformId}
  {this : ObjectRef} {id : InstanceId} {i : Instance} {n : Nat} {op m : Method} {args : List Value}
  {steps : Nat}

/-- On a bound object whose script type has no function for it, the call of an operation of the table comes
to what answers for the operation that the same call by name on the base reaches. -/
theorem World.HasSubtype.comesTo_invoke (ht : w.HasSubtype base interfaces properties t)
    (hroutes : w.Routes p t) (hcls : this.cls = t.id) (hbound : w.Bound p this id i)
    (hop : (w.types.proxy? t.id).bind (·.operations[n]?) = some op) (hn : n < 0x80000000)
    (hvirtual : op.isVirtual = true) (hcapability : op.declaring ≠ capabilityName)
    (hm : w.types.findVirtual? base.id op.slot = some m)
    (hleaves : i.script.Leaves w.types base.id op.name args.length)
    (haccepts : List.Forall₂ (fun t v => w.types.accepts t v = true) op.params args)
    (hsteps : 6 * op.params.length + 16 ≤ steps) (depth : Nat) :
    ∃ s, w.types.findMethodFor? base.id op.name args = some s ∧
      w.types.findVirtual? base.id s.slot = some s ∧
      ∀ {y : Action Value} {f : TypeTable → Value → Except HostError Value},
        (∀ w', w.Aside w' → ComesTo w'
          (if s.isAbstract then Action.raise (.unimplementedAbstract op.text i.script.name)
            else if s.slot = op.slot then
              (exec steps (depth + 1)).overridden p this op (args.map Value.box)
            else (exec steps (depth + 1)).callOverload p this s (args.map Value.box)) y f) →
        ComesTo w ((exec steps (depth + 3)).invoke this op.slot args) y fun types v =>
          (f types v).map .box >>= types.unboxOrCast op.returns := by
  obtain ⟨e, older, w₀, b, hs⟩ := ht.stands
  have hlisted := hs.getElem?_operations hop
  obtain ⟨thunk, hthunk, hinvoke⟩ := hs.proxy.invoke_apply hlisted hvirtual hs.lookup hcls
    (exec steps (depth + 3))
  obtain ⟨s, hfirst⟩ := TypeTable.exists_find?_reachedWith hm (TypeTable.acceptsArgs_of_accepts haccepts)
  refine ⟨s, TypeTable.findMethodFor?_of_find? hfirst, TypeTable.findVirtual?_of_find? hfirst,
    fun h => .of_eq (hinvoke args) ?_⟩
  exact hs.proxy.comesTo_thunk_of_bound hlisted hthunk hn hcapability hroutes hcls hbound haccepts
    (hleaves.resolve? hfirst) hsteps depth h

/-- **Calls that a script leaves to the host.** On a bound object whose script type has no function for
it, the call of an operation of the table reaches the operation that the same call by name on the base
reaches. If that has no body, the call raises that the script type does not implement the operation. If
it is of another slot, the call runs it as an overload, which comes to its body. If it is of the slot
that was called, it is what the slot reaches on the base, and the accessor that is found for the
operation runs, which comes to the body of what the slot reaches on the same arguments. -/
theorem World.invoke_unscripted (ht : w.HasSubtype base interfaces properties t)
    (hroutes : w.Routes p t) (hcls : this.cls = t.id) (hbound : w.Bound p this id i)
    (hop : (w.types.proxy? t.id).bind (·.operations[n]?) = some op) (hn : n < 0x80000000)
    (hvirtual : op.isVirtual = true) (hcapability : op.declaring ≠ capabilityName)
    (hm : w.types.findVirtual? base.id op.slot = some m)
    (hleaves : i.script.Leaves w.types base.id op.name args.length)
    (haccepts : List.Forall₂ (fun t v => w.types.accepts t v = true) op.params args)
    (hsteps : 6 * op.params.length + 16 ≤ steps) (depth : Nat) :
    ∃ s a, w.types.findMethodFor? base.id op.name args = some s ∧ (s.slot = op.slot → s = m) ∧
      w.types.findAccessor t.id op = .ok a ∧
      (s.isAbstract = true → ComesTo w ((exec steps (depth + 3)).invoke this op.slot args)
        (Action.raise (.unimplementedAbstract op.text i.script.name)) fun _ v => .ok v) ∧
      (s.isAbstract = false → s.slot ≠ op.slot →
        ComesTo w ((exec steps (depth + 3)).invoke this op.slot args)
          ((exec steps (depth + 1)).callOverload p this s (args.map Value.box))
          fun types v => types.unboxOrCast op.returns v.box) ∧
      (s.slot ≠ op.slot → w.Lent base t properties steps this args s →
        List.Forall₂ (fun t v => w.types.accepts t v = true) s.params args →
        ComesTo w ((exec steps (depth + 3)).invoke this op.slot args)
          (exec steps depth (.method s this args)) fun types v => types.unboxOrCast op.returns v.box) ∧
      (s.isAbstract = false → s.slot = op.slot →
        ComesTo w ((exec steps (depth + 3)).invoke this op.slot args)
          (exec steps (depth + 1) (.method a this args)) fun types v =>
            types.unboxOrCast op.returns v.box) ∧
      (s.slot = op.slot → w.Lent base t properties steps this args m →
        ComesTo w ((exec steps (depth + 3)).invoke this op.slot args)
          (exec steps depth (.method m this args)) fun _ v => .ok v) := by
  obtain ⟨s, hreached, hs, hcalls⟩ := ht.comesTo_invoke hroutes hcls hbound hop hn hvirtual
    hcapability hm hleaves haccepts hsteps depth
  obtain ⟨e, older, w₀, b, h⟩ := ht.stands
  obtain ⟨a, ha⟩ := h.proxy.findAccessor (h.getElem?_operations hop) h.lookup
  have hsame : s.slot = op.slot → s = m := by
    intro hslot
    rw [hslot, hm] at hs
    exact (Option.some.inj hs).symm
  refine ⟨s, a, hreached, hsame, ha, fun habstract => ?_, fun hconcrete hother => ?_,
    fun hother hlent hsaccepts => ?_, fun hconcrete hslot => ?_, fun hslot hlent => ?_⟩
  · refine (hcalls (f := fun _ v => .ok v) fun w' haside => ?_).congr ?_
    · rw [if_pos habstract]
      exact .refl rfl
    · intro w' v after _ hraised
      cases hraised
  · refine hcalls (f := fun _ v => .ok v) fun w' haside => ?_
    rw [if_neg (Bool.eq_false_iff.1 hconcrete), if_neg hother]
    exact .refl (letsGo_callOverload steps (depth + 1) p this s _ w')
  · refine hcalls (f := fun _ v => .ok v) fun w' haside => ?_
    rw [if_neg (Bool.eq_false_iff.1 hlent.concrete), if_neg hother]
    have hlength := hsaccepts.length_eq.trans haccepts.length_eq.symm
    exact (h.aside haside).comesTo_callOverload (hroutes.aside haside) hcls (haside.types ▸ hs)
      (hlent.aside haside) (haside.types ▸ hsaccepts) (by omega) depth
  · refine hcalls (f := fun _ v => .ok v) fun w' haside => ?_
    rw [if_neg (Bool.eq_false_iff.1 hconcrete), if_pos hslot]
    refine Runner.comesTo_overridden (hroutes.aside haside).accessors ?_ (haside.types ▸ haccepts)
      fun w'' _ => .refl (held_exec steps (depth + 1) _ w'')
    rw [haside.types, hcls]
    exact ha
  · obtain rfl := hsame hslot
    refine (hcalls (f := fun _ v => .ok v) fun w' haside => ?_).congr fun w' v after haside hv => ?_
    · rw [if_neg (Bool.eq_false_iff.1 hlent.concrete), if_pos hslot]
      exact (h.aside haside).comesTo_overridden (hroutes.aside haside) hcls (haside.types ▸ hs)
        (hlent.aside haside) hslot.symm (haside.types ▸ haccepts) (by omega) depth
    · have haccepted := hlent.returns _ w' v after haside hv
      rw [(Slot.mk.inj hslot).2.1] at haccepted
      exact TypeTable.unboxOrCast_box haccepted

end

/-- On an object of a gauge with two overloads, the call for a string runs the body for strings. -/
theorem World.invoke_unscripted_gauge : ∃ (w : World) (t : HostType),
    w.HasGauge [measureString, measureObject] (.bound ⟨0⟩) t ∧
    ((exec 22 4).invoke gaugeObject measureString.slot [.str "x"] w).1 = .ok (.prim (.int 1)) := by
  obtain ⟨w, t, h⟩ := exists_hasGauge (.bound ⟨0⟩) (.inr rfl)
  obtain ⟨op, hop, hslot, hvirtual, hcapability, -, haccepts, hsteps⟩ := h.operation_string "x"
  have hm : w.types.findVirtual? (gauge [measureString, measureObject]).id op.slot =
      some measureString := by
    rw [TypeTable.findVirtual?, h.methods, hslot]
    rfl
  obtain ⟨s, -, hreached, -, -, -, -, -, -, hcomes⟩ := World.invoke_unscripted h.subtype h.routes h.cls
    h.bound hop (by decide) hvirtual hcapability hm (h.leaves _ _) haccepts hsteps 1
  rw [TypeTable.findMethodFor?, h.methods, (Slot.mk.inj hslot).1] at hreached
  obtain rfl : measureString = s := Option.some.inj hreached
  rw [hslot] at hcomes
  refine ⟨w, t, h, ?_⟩
  exact (hcomes rfl (h.lent (.inl rfl) _)).fst_eq_ok (fun _ _ => rfl) fun _ => rfl

/-- An overload without a body that is declared first answers the call for a string, so that the call
raises that nothing implements the operation, which has a body. -/
theorem World.invoke_unscripted_raises : ∃ (w : World) (t : HostType),
    w.HasGauge [measureNothing, measureString] (.bound ⟨0⟩) t ∧
    w.types.findVirtual? (gauge [measureNothing, measureString]).id measureString.slot =
      some measureString ∧
    (exec 22 4 (.method measureString gaugeObject [.str "x"]) w).1 = .ok (.prim (.int 1)) ∧
    ((exec 22 4).invoke gaugeObject measureString.slot [.str "x"] w).1 =
      .error (.raised (.unimplementedAbstract measureString.text "Script")) := by
  obtain ⟨w, t, h⟩ := exists_hasGauge (.bound ⟨0⟩) (.inl rfl)
  obtain ⟨op, hop, hslot, hvirtual, hcapability, hdeclaring, haccepts, hsteps⟩ := h.operation_string "x"
  obtain ⟨hname, hreturns, hparams⟩ := Slot.mk.inj hslot
  have hm : w.types.findVirtual? (gauge [measureNothing, measureString]).id op.slot =
      some measureString := by
    rw [TypeTable.findVirtual?, h.methods, hslot]
    rfl
  have htext : op.text = measureString.text := by
    rw [Method.text, Method.descriptor, hdeclaring, hname, hparams, hreturns]
    rfl
  obtain ⟨s, hreached, -, hcalls⟩ := h.subtype.comesTo_invoke h.routes h.cls h.bound hop (by decide)
    hvirtual hcapability hm (h.leaves _ _) haccepts hsteps 1
  rw [TypeTable.findMethodFor?, h.methods, hname] at hreached
  obtain rfl : measureNothing = s := Option.some.inj hreached
  rw [hslot] at hm hcalls
  refine ⟨w, t, h, hm, rfl, ?_⟩
  refine (hcalls (f := fun _ v => .ok v) fun w' _ => ?_).fst_eq_error (y := Action.raise
    (.unimplementedAbstract measureString.text "Script")) fun _ _ => rfl
  rw [htext]
  exact .refl rfl

end Interpose
