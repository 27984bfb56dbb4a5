import Interpose.Proofs.Hierarchies
import Interpose.Proofs.Resolution
import Interpose.Proofs.Subtypes

/-!
# Calls by name

A call by name goes through the operations of a type in the same order as a call of a slot, and whether an
operation can answer depends on its slot only. So what a call by name reaches is never hidden by an earlier
operation of the slot. A script type that extends the type and nothing else imports the first operation of each
slot, in this order, and picks from them what the host picks from all.
-/

namespace Interpose

/-- **No call by name bypasses an override.** What a call by name reaches is what a call of its slot reaches: nothing
that calls can reach and that comes before it in the hierarchy is of its slot. So the two calls run the same body. -/
theorem TypeTable.findMethodFor?_not_overridden {types : TypeTable} {id : TypeId} {name : String} {args : List Value}
    {m : Method} (h : types.findMethodFor? id name args = some m) :
    types.findVirtual? id m.slot = some m ∧
    (∃ before after, types.methodsOf id = before ++ m :: after ∧
      ∀ n ∈ before, n.isVirtual = true → n.slot ≠ m.slot) ∧
    ∀ (run : Runner) (w : World) (o : ObjectRef), w.types = types → o.cls = id →
      run.call o name args w = run (.method m o args) w ∧
      run.invoke o m.slot args w = run (.method m o args) w := by
  have hvirtual := findVirtual?_of_findMethodFor? h
  refine ⟨hvirtual, ?_, fun run w o htypes hcls => ?_⟩
  · obtain ⟨-, before, after, hsplit, hbefore⟩ := List.find?_eq_some_iff_append.1 hvirtual
    refine ⟨before, after, hsplit, fun n hn hnvirtual hslot => ?_⟩
    have hmissed := hbefore n hn
    rw [Method.and_occupies_iff.2 ⟨hnvirtual, hslot⟩] at hmissed
    cases hmissed
  · subst htypes hcls
    have hget := Action.get_apply w
    rw [Runner.call, Runner.invoke, Action.bind_apply_ok hget, Action.bind_apply_ok hget, h, hvirtual]
    exact ⟨rfl, rfl⟩

/-- An operation that overrides one of a gauge. -/
def meterMeasures : Method :=
  { measureObject with declaring := "Meter", declaringId := ⟨3⟩, body := .native fun _ _ => .done (.prim (.int 2)) }

/-- A class below a gauge with two overloads that overrides one of them. -/
def meter : HostType :=
  ⟨⟨3⟩, "Meter", .cls, .public, some (gauge []).id, [], [meterMeasures], [], [], .system, none⟩

/-- The types with both classes. -/
def meterTypes : TypeTable := meter :: gauge [measureString, measureObject] :: TypeTable.initial

theorem numbered_meterTypes : meterTypes.Numbered := by
  refine ⟨rfl, fun s hs => ?_, fun s hs => absurd hs List.not_mem_nil, numbered_gauge _⟩
  cases hs
  decide

/-- A number is measured as the class says that overrides the operation, by name and by slot. -/
theorem TypeTable.findMethodFor?_not_overridden_meter :
    meterTypes.findMethodFor? meter.id "measure" [.boxed (.int 7)] = some meterMeasures ∧
    meterTypes.findVirtual? meter.id measureObject.slot = some meterMeasures ∧
    ((exec 1 2).invoke ⟨0, meter.id⟩ measureObject.slot [.boxed (.int 7)]
      { World.initial {} with types := meterTypes }).1 = .ok (.prim (.int 2)) := by
  have hfound : meterTypes.findMethodFor? meter.id "measure" [.boxed (.int 7)] = some meterMeasures := rfl
  obtain ⟨hvirtual, -, hruns⟩ := findMethodFor?_not_overridden hfound
  refine ⟨hfound, hvirtual, ?_⟩
  obtain ⟨-, hinvoke⟩ := hruns (exec 1 2) { World.initial {} with types := meterTypes } ⟨0, meter.id⟩ rfl rfl
  exact (congrArg Prod.fst hinvoke).trans rfl

/-- **Scripts and the host agree on names.** A script type that extends a base and no further interfaces answers
what its script does not define with the operation that a call by name on the base reaches, and with none if there
is none. The base is the same when the script type is made and when the call is resolved, whatever types were added
in between. -/
theorem ScriptType.resolve?_extending {older types : TypeTable} (hnumbered : types.Numbered) (hgrown : older <:+ types)
    (base : TypeId) (hbase : base.index < older.length) (label : String) {defined : List ScriptFunction}
    {name : String} {args : List Value}
    (hnone : ∀ f ∈ defined, f.name = name → f.accepts args.length = false) :
    (older.extendScript label base [] [] defined).resolve? types name args =
      (types.findMethodFor? base name args).map .imported := by
  obtain ⟨new, rfl⟩ := hgrown
  have hsame : older.methodsOf base = TypeTable.methodsOf (new ++ older) base :=
    (hnumbered.methodsOf_append hbase).symm
  have himported {P : Method → Bool} (hP : ∀ a b : Method, a.slot = b.slot → P a = P b) :
      (TypeTable.importNew [] (older.methodsOf base)).find? P =
        ((TypeTable.methodsOf (new ++ older) base).filter (·.isVirtual)).find? P := by
    rw [TypeTable.find?_importNew hP, List.nil_append, hsame]
  rw [resolve?_of_functions rfl hnone, TypeTable.findMethodFor?_eq_or]
  refine congrArg (Option.map _) (congrArg₂ Option.or (himported fun _ _ => TypeTable.answersWith_congr) ?_)
  exact himported fun _ _ => Method.fits_congr

/-- A script type that extends a gauge and takes two measures at once leaves single ones to the gauge: those of objects
that were declared later to the overload for anything, and those of strings to that for strings. -/
theorem ScriptType.resolve?_extending_meter :
    let script := TypeTable.extendScript (gauge [measureString, measureObject] :: TypeTable.initial) "Script"
      (gauge []).id [] [] [.scripted "measure" (some 2) fun _ _ _ => .done .null]
    script.resolve? meterTypes "measure" [.object ⟨0, meter.id⟩] = some (.imported measureObject) ∧
    script.resolve? meterTypes "measure" [.str "x"] = some (.imported measureString) ∧
    script.resolve? meterTypes "measure" [] = none := by
  have hleft (args : List Value) (h : args.length ≠ 2) : ∀ f ∈ [ScriptFunction.scripted "measure" (some 2)
      fun _ _ _ => .done .null], f.name = "measure" → f.accepts args.length = false := by
    intro f hf _
    obtain rfl := List.mem_singleton.1 hf
    exact beq_eq_false_iff_ne.2 h.symm
  have hresolve (args : List Value) (h : args.length ≠ 2) := resolve?_extending numbered_meterTypes ⟨[meter], rfl⟩
    (gauge []).id (by decide) "Script" (hleft args h)
  exact ⟨hresolve _ (by decide), hresolve _ (by decide), hresolve _ (by decide)⟩

end Interpose
