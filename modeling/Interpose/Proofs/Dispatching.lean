import Interpose.Machine.Exec
import Interpose.Proofs.BackEnds
import Interpose.Proofs.Definitions
import Interpose.Proofs.Hierarchies
import Interpose.Proofs.Thunks

/-!
# Calls of proxies

What a call of an operation on a proxy does, whichever back-end made the proxy: with a dispatcher the
call is handed to it once, and without one it goes up.
-/

namespace Interpose

namespace Layer

/-- What an operation overrides has its slot. -/
theorem slot_of_superTarget? {types : TypeTable} {superclass : TypeId} {op m : Method}
    (h : superTarget? types superclass op = some m) : m.slot = op.slot := by
  have hfound := (Option.filter_eq_some_iff.1 h).1
  have hm := List.find?_some hfound
  rw [Bool.and_eq_true] at hm
  exact beq_iff_eq.1 hm.2

/-- The body of a thunk realizes its code. -/
theorem realizes_thunk {e : Emitter} {owner : TypeId} {name : String} {index : Nat} {op : Method}
    {target : Option Method} {code : Code} {unit : CompiledBody}
    (hcode : thunkCode name index op target = .ok code) (hunit : e.body owner code = .ok unit) :
    unit.Realizes owner code (e.backend.place code.instrs.toList) := by
  refine Emitter.realizes_of_size_lt hunit ?_
  have hsize := size_thunk_le hcode
  have hparams := params_lt_of_thunk hcode
  rw [UInt32.size]
  omega

end Layer

/-! ## Running generated operations -/

/-- A type is there while a body of it runs on an object of it or of a class below. -/
theorem World.isDefined_of_mem_lineage {w : World} {this : ObjectRef} {t : HostType}
    (h : t ∈ w.types.lineage this.cls) : w.isDefined this t.id = true := by
  rw [isDefined, Bool.or_eq_true]
  exact .inl (List.any_eq_true.2 ⟨t, h, beq_self_eq_true _⟩)

/-- Running an operation with a generated body runs the body, if it gets as many arguments as it has
parameters. -/
theorem Runner.runTask_compiled {run : Runner} {steps : Nat} {m : Method} {unit : CompiledBody}
    {this : ObjectRef} {args : List Value} (hbody : m.body = .compiled unit)
    (hargs : args.length = m.params.length) :
    run.runTask steps (.method m this args) = unit.run run steps this args := by
  simp only [runTask, checkCount, if_pos hargs, hbody]
  rfl

/-- A proxy is the nearest dispatching layer to itself. -/
theorem Emitter.Proxy.find?_lineage {e : Emitter} {w : World} {bridge base : HostType}
    {operations : List Method} {requested : List TypeId} {t : HostType}
    (ht : e.Proxy w bridge base operations requested t) {types : TypeTable}
    (hlookup : types.lookup? t.id = some t) :
    (types.lineage t.id).find? (fun t => t.generated.any (·.role == .proxy)) = some t := by
  obtain ⟨rest, hlineage⟩ := TypeTable.lineage_of_lookup? hlookup
  rw [hlineage, List.find?_cons, ht.generated]
  rfl

/-- Running the thunk of an operation does what the thunk means, given as many instructions as its code
has. -/
theorem Emitter.Proxy.runTask_thunk {e : Emitter} {w₀ : World} {bridge base : HostType}
    {operations : List Method} {requested : List TypeId} {t : HostType}
    (ht : e.Proxy w₀ bridge base operations requested t) {i : Nat} {op : Method}
    (hop : operations[i]? = some op) :
    ∃ thunk code, t.methods[2 * i]? = some thunk ∧ thunk.slot = op.slot ∧
      thunk.modifiers = Layer.overrideModifiers op ∧
      Layer.thunkCode t.name i op (Layer.superTarget? w₀.types bridge.id op) = .ok code ∧
      ∀ (run : Runner) (steps : Nat) (this : ObjectRef) (args : List Value) (w : World),
        code.instrs.size ≤ steps → w.types.lookup? t.id = some t →
        (∃ s ∈ w.types.lineage this.cls, s.id = t.id) →
        w.arrays[w₀.arrays.size]? = some ((Array.range operations.length).map .operation) →
        List.Forall₂ (fun p v => w.types.accepts p v = true) op.params args →
        run.runTask steps (.method thunk this args) w = World.holding [.type t.id]
          (Layer.thunkMeaning run t.id op operations.length i
            (Layer.superTarget? w₀.types bridge.id op) this args) w := by
  obtain ⟨code, unit, hcode, hunit, hmethod⟩ := ht.dispatching hop
  refine ⟨_, code, hmethod, rfl, rfl, hcode,
    fun run steps this args w hsteps hlookup hthis htable haccepts => ?_⟩
  have hdefined : w.isDefined this t.id = true := by
    obtain ⟨s, hs, hid⟩ := hthis
    exact hid ▸ World.isDefined_of_mem_lineage hs
  refine (congrFun (Runner.runTask_compiled rfl ?_) w).trans ?_
  · exact haccepts.length_eq.symm
  exact Layer.run_thunk hcode (Layer.realizes_thunk hcode hunit) (ht.find?_lineage hlookup)
    ht.generated (List.getElem?_eq_some_iff.1 hop).1 htable haccepts
    (fun m hm => Layer.slot_of_superTarget? hm) hdefined hsteps

/-- An operation with a number as its parameter. -/
def greeting : Method :=
  ⟨"greet", [.primitive .int], .reference stringName, .public, "Greeter", ⟨2⟩,
    .native fun _ _ => .done (.str "up")⟩

/-- A class that declares it. -/
def greeter : HostType :=
  ⟨⟨2⟩, "Greeter", .cls, .public, some .root, [], [greeting], [], [], .system, none⟩

/-- A dispatcher that answers the call of the first operation with the boxed seven, and nothing else. -/
def sevenOnly : Runner
  | .dispatch _ _ 0 [.boxed (.int 7)] => pure (.str "seven")
  | _ => throw .exhausted

end Interpose
