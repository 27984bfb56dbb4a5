import Interpose.Proofs.Bypassing
import Interpose.Proofs.Lending

/-!
# Ways to the host side

A thunk goes up itself if its type has no dispatcher. With the dispatcher of a platform it packs the arguments and asks,
and for an object that is under construction or bound to nothing the dispatcher looks the accessor of the operation up,
which goes up in turn. All of these run the same body on the same arguments, and hand its result on as it is.
-/

namespace Interpose

open Interpose.Action (ComesTo)

/-- Which accessor is found for an operation of a proxy is told by the proxy alone. -/
theorem Emitter.Proxy.findAccessor_eq_of_lookup {e : Emitter} {w₀ : World} {bridge base t : HostType}
    {operations : List Method} {requested : List TypeId} {n : Nat} {op : Method} {types types' : TypeTable}
    (ht : e.Proxy w₀ bridge base operations requested t) (hop : operations[n]? = some op)
    (h : types.lookup? t.id = some t) (h' : types'.lookup? t.id = some t) :
    types'.findAccessor t.id op = types.findAccessor t.id op := by
  obtain ⟨_, _, _, _, -, -, -, -, -, -, hfound⟩ := ht.exists_found hop
  rw [hfound h, hfound h']

namespace World

section

variable {e : Emitter} {older : TypeTable} {w w₀ : World} {base b t : HostType} {interfaces properties : List TypeId}
  {p : PlatformId} {n : Nat} {op own : Method} {o : ObjectRef} {args : List Value} {steps depth : Nat}
  {y : Action Value} (h : w.Stands e older w₀ base interfaces properties b t)
  (hop : (w₀.types.harvest b.id (dedupIds interfaces ++ [.capability]))[n]? = some op) (hvirtual : op.isVirtual = true)
  (hcls : o.cls = t.id) (haccepts : List.Forall₂ (fun t v => w.types.accepts t v = true) op.params args)
  (hsteps : 6 * op.params.length + 16 ≤ steps)
  (hcomes : ∀ w', w.Aside w' → ComesTo w'
    (Layer.hostSide (exec steps depth) op o args (Layer.superTarget? w₀.types b.id op)) y fun _ v => .ok v)
  (hreturns : ∀ w' v after, w.Aside w' → y w' = (.ok v, after) → after.types.accepts op.returns v = true)

include h hop hvirtual hcls haccepts hsteps hcomes hreturns

/-- Without a dispatcher, the call of an operation comes to what its host side comes to. -/
theorem Stands.comesTo_invoke_of_none (hnone : w.dispatcherOf? t.id = none) :
    ComesTo w ((exec steps (depth + 1)).invoke o op.slot args) y fun _ v => .ok v := by
  obtain ⟨thunk, hthunk, hinvoke⟩ := h.proxy.invoke_apply hop hvirtual h.lookup hcls (exec steps (depth + 1))
  have hup := h.proxy.comesTo_thunk_of_none hop hthunk h.lookup hnone (hcls ▸ TypeTable.mem_lineage h.lookup)
    haccepts.length_eq.symm hsteps depth
  refine .of_eq (hinvoke args) ((hup.trans hcomes).congr fun w' v after haside hv => ?_)
  exact congrArg Except.ok (TypeTable.result_of_accepts (hreturns w' v after haside hv))

/-- So does the call on an object that is under construction or bound to nothing, with the dispatcher of a platform. The
result goes into a box and out of it again. -/
theorem Stands.comesTo_invoke_of_free (hn : n < 0x80000000) (hown : t.methods[2 * n + 1]? = some own)
    (hfound : w.types.findAccessor t.id op = .ok own) (hroutes : w.Routes p t)
    (hfree : (w.platform p).constructing = some o ∨ w.Unbound o) :
    ComesTo w ((exec steps (depth + 3)).invoke o op.slot args) y fun _ v => .ok v := by
  obtain ⟨thunk, hthunk, hinvoke⟩ := h.proxy.invoke_apply hop hvirtual h.lookup hcls (exec steps (depth + 3))
  have hup := h.proxy.comesTo_thunk_of_free hop hthunk hn hown hroutes hcls hfree haccepts hfound hsteps depth
  refine .of_eq (hinvoke args) ((hup.trans hcomes).congr fun w' v after haside hv => ?_)
  have haccepted := hreturns w' v after haside hv
  calc after.types.unboxOrCast op.returns (if op.returns.isVoid then .void else v).box
      _ = after.types.unboxOrCast op.returns v.box := by rw [TypeTable.result_of_accepts haccepted]
      _ = .ok v := TypeTable.unboxOrCast_box haccepted

end

/-- **Ways to the host side.** For an operation of a subtype that is not private and whose own accessor is found, there
is one computation for given arguments: what is run where the way up of the operation ends. In whatever world has the
subtype, with its table kept, the call of the operation comes to it and ends as it does, both if the subtype has no
dispatcher and if it has that of a platform and the object is under construction or bound to nothing. -/
theorem invoke_bypasses {w : World} {base t : HostType} {interfaces properties : List TypeId} {n : Nat}
    {op own : Method} (h : w.HasSubtype base interfaces properties t)
    (hop : (w.types.proxy? t.id).bind (·.operations[n]?) = some op) (hn : n < 0x80000000)
    (hprivate : op.modifiers.isPrivate = false) (hown : t.methods[2 * n + 1]? = some own)
    (hfound : w.types.findAccessor t.id op = .ok own) :
    ∃ older : TypeTable, older <:+ w.types ∧ older.lookup? base.id = some base ∧
      (∀ m, older.ending base properties op.slot = .body m →
        w.types.Declares base.id properties m ∧ m.slot = op.slot ∧ m.isAbstract = false) ∧
      ∀ {o : ObjectRef} {args : List Value} {steps : Nat} (depth : Nat), o.cls = t.id →
        args.length = op.params.length → 6 * op.params.length + 16 ≤ steps →
        ∃ y, (older.ending base properties op.slot).Runs (exec steps (depth + 1)) op o args y ∧
          ∀ w' : World, w.types <:+ w'.types → w'.types.Numbered → w'.KeepsTable t →
            List.Forall₂ (fun t v => w'.types.accepts t v = true) op.params args →
            (∀ w'' v after, w'.Aside w'' → y w'' = (.ok v, after) → after.types.accepts op.returns v = true) →
            (w'.dispatcherOf? t.id = none →
              ComesTo w' ((exec steps (depth + 2)).invoke o op.slot args) y fun _ v => .ok v) ∧
            ∀ p, w'.Routes p t → (w'.platform p).constructing = some o ∨ w'.Unbound o →
              ComesTo w' ((exec steps (depth + 4)).invoke o op.slot args) y fun _ v => .ok v := by
  obtain ⟨e, older, w₀, pairs, b, hstands, hbuilt⟩ := h.built
  obtain ⟨new, hall, -⟩ := hstands.grown_base
  have hlisted := hstands.getElem?_operations hop
  have hvirtual := hstands.isVirtual hop hprivate
  refine ⟨older, ⟨new, hall.symm⟩, hstands.base, fun m hm => hstands.declares_of_ending hm,
    fun {o args steps} depth hcls hlength hsteps => ?_⟩
  have hsmall : op.params.length + 3 ≤ steps := by omega
  obtain ⟨y, hy, hcomes⟩ := hstands.exists_runs hbuilt hlisted hlength hsmall depth
  refine ⟨y, hy, fun w' hgrown hnumbered htable haccepts hreturns => ?_⟩
  have hstands' := hstands.later hgrown hnumbered
  have hfound' := (hstands.proxy.findAccessor_eq_of_lookup hlisted hstands.lookup hstands'.lookup).trans hfound
  have hbelow : t ∈ w'.types.lineage o.cls := hcls ▸ TypeTable.mem_lineage hstands'.lookup
  have hcomes' (w'' : World) (haside : w'.Aside w'') := hcomes w'' (hstands'.aside haside) (haside.types ▸ hbelow)
  exact ⟨hstands'.comesTo_invoke_of_none hlisted hvirtual hcls haccepts hsteps hcomes' hreturns, fun p =>
    hstands'.comesTo_invoke_of_free hlisted hvirtual hcls haccepts hsteps hcomes' hreturns hn hown hfound'⟩

/-- The world with an object of a type that is bound to nothing. -/
def withLoose (w : World) (t : HostType) : World :=
  { w with objects := #[⟨t.id, [], .unbound⟩] }

/-- On an object of the first subtype that is bound to nothing, the class opens, whether or not the subtype has its
dispatcher. -/
theorem invoke_bypasses_pouring : ∃ (w w₁ : World) (t t' : HostType),
    pouringWorld.createExtensionType .first valve.id [] [] .system = (.ok t.id, w₁) ∧
    w₁.createExtensionType .first t.id [pouring.id] [] .system = (.ok t'.id, w) ∧
    ((exec 16 2).invoke ⟨0, t.id⟩ valveOpen.slot [] { w.withLoose t with installed := [] }).1 =
      .ok (.str "host opens") ∧
    ((exec 16 4).invoke ⟨0, t.id⟩ valveOpen.slot [] (w.withLoose t)).1 = .ok (.str "host opens") := by
  obtain ⟨w, w₁, t, t', h₁, h₂, h⟩ := exists_hasPouring
  refine ⟨w, w₁, t, t', h₁, h₂, ?_⟩
  have hw : (w.withLoose t).HasPouring t t' := h.of_objects _ _ _
  obtain ⟨_, properties, hinner⟩ := hw.inner
  obtain ⟨op, hop, hslot⟩ := TypeTable.exists_operation (n := 1) (s := valveOpen.slot) hw.slots rfl
  obtain ⟨own, hown, hfound⟩ := exists_own_of_slots hinner.subtype hw.slots (by decide) hop hslot
  obtain ⟨g, hg, hmem⟩ := Option.bind_eq_some_iff.1 hop
  have hvirtual := hw.isVirtual g hg op (List.mem_of_getElem? hmem)
  have hprivate : op.modifiers.isPrivate = false := by
    rw [Method.isVirtual, Bool.and_eq_true] at hvirtual
    simpa using hvirtual.2
  obtain ⟨-, hreturns, hparams⟩ := Slot.mk.inj hslot
  obtain ⟨older, -, hvalve, -, hways⟩ :=
    invoke_bypasses hinner.subtype hop (by decide) hprivate hown hfound
  have hlength : ([] : List Value).length = op.params.length := by
    rw [hparams]
    rfl
  have hsteps : 6 * op.params.length + 16 ≤ 16 := by
    rw [hparams]
    decide
  obtain ⟨y, hy, hways⟩ := hways (o := ⟨0, t.id⟩) 0 rfl hlength hsteps
  rw [hslot, ending_valve hvalve] at hy
  subst hy
  rw [hslot] at hways
  have haccepted {w' after : World} {v : Value}
      (hv : exec 16 1 (.method valveOpen ⟨0, t.id⟩ []) w' = (.ok v, after)) :
      after.types.accepts op.returns v = true := by
    rw [hreturns]
    cases hv
    rfl
  have hroutes := hinner.routes hw.sane hw.table
  obtain ⟨hempty, -⟩ := hways { w.withLoose t with installed := [] } List.suffix_rfl hw.sane.numbered hw.table
    (hparams ▸ .nil) fun _ _ _ _ hv => haccepted hv
  obtain ⟨-, hrouted⟩ := hways (w.withLoose t) List.suffix_rfl hw.sane.numbered hw.table (hparams ▸ .nil)
    fun _ _ _ _ hv => haccepted hv
  exact ⟨(hempty rfl).fst_eq_ok (fun w' _ => rfl) fun _ => rfl,
    (hrouted .first hroutes (.inr rfl)).fst_eq_ok (fun w' _ => rfl) fun _ => rfl⟩

end World

/-! ## A table that was overwritten -/

/-- Runs the code that overwrites the table of the subtype, and makes an object of that which is bound to nothing. -/
def strayValve : Action ObjectRef := do
  let _ ← breakValve
  World.allocate ⟨4⟩

/-- Whether the object is made, the accessor that is found for the operation that opens is named for it, and the class
shuts when the object is called to open, and opens without a dispatcher. -/
def World.Strays (w : World) : Prop :=
  (strayValve w).1 = .ok ⟨1, ⟨4⟩⟩ ∧
  ((strayValve w).2.types.findAccessor ⟨4⟩ valveOpen).toOption.map (·.name) = some valveOpen.accessorName ∧
  ((exec 30 6).invoke ⟨1, ⟨4⟩⟩ valveOpen.slot [] (strayValve w).2).1 = .ok (.str "host shuts") ∧
  ((exec 30 6).invoke ⟨1, ⟨4⟩⟩ valveOpen.slot [] { (strayValve w).2 with installed := [] }).1 =
    .ok (.str "host opens")

instance : DecidablePred World.Strays := fun _ => inferInstanceAs (Decidable (_ ∧ _))

/-- So it is in the world with the class. -/
theorem exists_strays :
    ∃ w, World.generate ⟨.weave, false⟩ valve.id [] [] .system (some ⟨0⟩) valveWorld = (.ok ⟨4⟩, w) ∧ w.Strays := by
  apply World.exists_generate (P := World.Strays)
  · rfl
  · rfl
  · rw [TypeTable.harvestAbstract, TypeTable.harvest, TypeTable.interfaceList, TypeTable.extendFound]
    rfl
  · rfl
  · exact TypeTable.harvest_singleton rfl rfl rfl
  · apply exists_eq_ok_of_decide (P := fun w : World => World.Strays { w with installed := _ })
    decide +kernel
  · rfl

/-- Once verified code below the subtype has overwritten the number of an operation, the call of that operation on an
object that is bound to nothing runs what the class has for another one, and without a dispatcher what it has for it. -/
theorem World.invoke_bypasses_differs : ∃ w w',
    World.generate ⟨.weave, false⟩ valve.id [] [] .system (some ⟨0⟩) valveWorld = (.ok ⟨4⟩, w) ∧
    strayValve w = (.ok ⟨1, ⟨4⟩⟩, w') ∧
    (w'.types.findAccessor ⟨4⟩ valveOpen).toOption.map (·.name) = some valveOpen.accessorName ∧
    ((exec 30 6).invoke ⟨1, ⟨4⟩⟩ valveOpen.slot [] w').1 = .ok (.str "host shuts") ∧
    ((exec 30 6).invoke ⟨1, ⟨4⟩⟩ valveOpen.slot [] { w' with installed := [] }).1 = .ok (.str "host opens") := by
  obtain ⟨w, hgenerate, hmade, hanswers⟩ := exists_strays
  exact ⟨w, (strayValve w).2, hgenerate, Prod.ext hmade rfl, hanswers⟩

end Interpose
