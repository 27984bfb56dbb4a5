import Interpose.Machine.Expr
import Interpose.Proofs.Calling
import Interpose.Proofs.Subtypes

/-!
# Errors that nothing catches

An error goes up through the tasks that wait for one another. Generated bodies, dispatchers, routing and what goes up to
what an operation overrides hand it on as it is. So does a body that catches nothing, except that a function of a script
object makes an error of the script of it: one of the script it leaves alone, and any other keeps its wording.
-/

namespace Interpose

open Interpose.Action (Fails)

/-! ## Bodies that catch nothing -/

namespace Program

theorem passes_need {held : List Value} {r : Request} {next : Value → Program} (h : ∀ v, (next v).Passes) :
    (need held r next).Passes :=
  ⟨fun _ => rfl, h⟩

theorem passes_withText {v : Value} {next : String → Program} (h : ∀ text, (next text).Passes) :
    (withText v next).Passes := by
  refine passes_need fun name => ?_
  split
  · exact h _
  · exact h _

theorem passes_withTexts {vs : List Value} {text : String} {next : String → Program}
    (h : ∀ text, (next text).Passes) : (withTexts vs text next).Passes := by
  induction vs generalizing text with
  | nil => exact h text
  | cons v rest ih => exact passes_withText fun _ => ih

end Program

namespace Expr

mutual

/-- Whether an expression catches errors somewhere. -/
def catches : Expr → Bool
  | .attempt _ => true
  | .seq es | .call _ es | .overridden _ es | .concat es | .construct _ es => catchesAny es
  | .log e | .set _ e | .box e | .typeName e => e.catches
  | .callOn receiver _ es => receiver.catches || catchesAny es
  | .ite condition yes none => condition.catches || yes.catches
  | .ite condition yes (some no) => condition.catches || yes.catches || no.catches
  | .eq a b | .add a b => a.catches || b.catches
  | _ => false

/-- Whether one of some expressions catches errors somewhere. -/
def catchesAny : List Expr → Bool
  | [] => false
  | e :: rest => e.catches || catchesAny rest

end

open Program (passes_need passes_withText passes_withTexts)

mutual

/-- An expression that catches no errors passes them on, if what goes on with its value does. -/
theorem passes_eval {s : Scope} {held : List Value} {k : Value → Program} (e : Expr) (h : e.catches = false)
    (hk : ∀ v, (k v).Passes) : (eval s held e k).Passes := by
  cases e with
  | attempt e => cases h
  | literal l => exact passes_need hk
  | arg i => exact hk _
  | argCount => exact hk _
  | args => exact passes_need hk
  | this => exact hk _
  | seq es => exact passes_evalAll es h fun _ => hk _
  | log e => exact passes_eval e h fun v => passes_withText fun _ => passes_need hk
  | get name => rcases s with ⟨this, args, _ | id | n⟩ <;> exact passes_need hk
  | set name e =>
    refine passes_eval e h fun v => ?_
    split <;> exact passes_need hk
  | call name es => exact passes_evalAll es h fun _ => passes_need hk
  | callOn receiver name es =>
    obtain ⟨hreceiver, hes⟩ := Bool.or_eq_false_iff.1 h
    refine passes_eval receiver hreceiver fun v => ?_
    split
    · exact passes_evalAll es hes fun _ => passes_need hk
    · refine passes_need fun name => ?_
      split <;> trivial
  | overridden name es =>
    refine passes_evalAll es h fun _ => ?_
    split
    · exact passes_need hk
    · exact passes_need hk
    · trivial
  | operation => rcases s with ⟨this, args, _ | id | n⟩ <;> exact hk _
  | throw e => trivial
  | fail message => trivial
  | ite condition yes no =>
    cases no with
    | none =>
      obtain ⟨hcondition, hyes⟩ := Bool.or_eq_false_iff.1 h
      refine passes_eval condition hcondition fun v => ?_
      split
      · exact passes_eval yes hyes hk
      · exact hk _
    | some no =>
      obtain ⟨hfirst, hno⟩ := Bool.or_eq_false_iff.1 h
      obtain ⟨hcondition, hyes⟩ := Bool.or_eq_false_iff.1 hfirst
      refine passes_eval condition hcondition fun v => ?_
      split
      · exact passes_eval yes hyes hk
      · exact passes_eval no hno hk
  | eq a b =>
    obtain ⟨ha, hb⟩ := Bool.or_eq_false_iff.1 h
    exact passes_eval a ha fun v => passes_eval b hb fun w => hk _
  | add a b =>
    obtain ⟨ha, hb⟩ := Bool.or_eq_false_iff.1 h
    exact passes_eval a ha fun v => passes_eval b hb fun w => hk _
  | concat es => exact passes_evalAll es h fun vs => passes_withTexts fun _ => hk _
  | box e => exact passes_eval e h fun v => hk _
  | typeName e => exact passes_eval e h fun v => passes_need hk
  | isConstructing => exact passes_need hk
  | isActive => exact passes_need hk
  | isBound => exact passes_need hk
  | bind name => exact passes_need hk
  | extend script name => exact passes_need hk
  | construct type es => exact passes_evalAll es h fun _ => passes_need hk

theorem passes_evalAll {s : Scope} {held : List Value} {k : List Value → Program} (es : List Expr)
    (h : catchesAny es = false) (hk : ∀ vs, (k vs).Passes) : (evalAll s held es k).Passes := by
  cases es with
  | nil => exact hk []
  | cons e rest =>
    obtain ⟨he, hrest⟩ := Bool.or_eq_false_iff.1 h
    exact passes_eval e he fun v => passes_evalAll rest hrest fun vs => hk _

end

end Expr

/-! ## Chains of calls -/

/-- The world in which the task of a call runs, where the task holds what it works on. -/
def Call.within (c : Call) : World := c.world.withHeld c.task.holders

/-- Calls that each wait for the next one, from the first one and a bound of how deep they nest: each but the last is of
a task whose body passes errors on, and makes the call after it. The last one is where the error comes from. -/
inductive Chain (steps : Nat) (e : HostError) : Nat → Call → List Call → Prop
  /-- A task ends with the error. -/
  | raised {depth : Nat} {c : Call} (fails : Fails (exec steps depth c.task) c.world e) : Chain steps e depth c []
  /-- The body of a function of a script object ends with the error. -/
  | inside {depth : Nat} {c : Call} {f : ScriptFunction} {name : String} {arity : Option Nat} {body : ScriptBody}
      {id : InstanceId} {i : Instance} {args : List Value} (task : c.task = .function f id args)
      (scripted : f = .scripted name arity body) (found : c.within.instances[id.index]? = some i)
      (fails : Fails ((exec steps depth).program (body id i.bridge args)) c.within e) : Chain steps e (depth + 1) c []
  /-- A task waits for a call that it makes. -/
  | waits {depth : Nat} {c c' : Call} {rest : List Call} (passes : c.task.Passes c.within)
      (makes : c' ∈ c.task.calls (exec steps depth) steps c.within) (below : Chain steps e depth c' rest) :
      Chain steps e (depth + 1) c (c' :: rest)

/-- Whether an error is another one as it arrives through some calls: as it is, or as a function of a script object
among them tells it. A script's error arrives as it is, and any other with its wording. -/
structure HostError.Arrives (e : HostError) (calls : List Call) (e' : HostError) : Prop where
  told : e' = e ∨ (∃ c ∈ calls, c.task.isFunction = true) ∧ e' = .script (.ofHostError e)
  message : e'.message = e.message
  script : ∀ s, e = .script s → e' = .script s

namespace HostError.Arrives

variable {e e' : HostError} {calls : List Call} {c : Call}

theorem refl (e : HostError) (calls : List Call) : e.Arrives calls e := ⟨.inl rfl, rfl, fun _ h => h⟩

/-- What arrives as it is or as an error of the script keeps its wording. -/
theorem of_function (e : HostError) (h : ∃ c ∈ calls, c.task.isFunction = true) :
    e.Arrives calls (.script (.ofHostError e)) := by
  refine ⟨.inr ⟨h, rfl⟩, ScriptError.message_ofHostError e, ?_⟩
  rintro s rfl
  rfl

/-- What arrives at a call arrives alike at one that waits for it, if that hands it on. -/
theorem host (h : e.Arrives calls e') : e.Arrives (c :: calls) e' := by
  refine ⟨h.told.imp_right fun ⟨⟨d, hd, hfunction⟩, he⟩ => ?_, h.message, h.script⟩
  exact ⟨⟨d, List.mem_cons_of_mem _ hd, hfunction⟩, he⟩

/-- A function makes an error of the script of what arrives, which it may be already. -/
theorem function (h : e.Arrives calls e') (hc : c.task.isFunction = true) :
    e.Arrives (c :: calls) (.script (.ofHostError e')) := by
  have hfunction : ∃ d ∈ c :: calls, d.task.isFunction = true := ⟨c, List.mem_cons_self, hc⟩
  rcases h.told with rfl | ⟨-, rfl⟩
  · exact of_function e' hfunction
  · exact of_function e hfunction

end HostError.Arrives

namespace Chain

variable {steps depth : Nat} {e : HostError} {c : Call} {rest : List Call}

/-- An error of the call that a task waits for arrives at the task. -/
theorem exists_fails_of_waits {c' : Call} {e' : HostError} (hpasses : c.task.Passes c.within)
    (hmakes : c' ∈ c.task.calls (exec steps depth) steps c.within) (harrives : e.Arrives (c' :: rest) e')
    (hfails : Fails (exec steps depth c'.task) c'.world e') :
    ∃ e'', e.Arrives (c :: c' :: rest) e'' ∧ Fails (exec steps (depth + 1) c.task) c.world e'' := by
  cases hhost : c.task.isFunction with
  | false => exact ⟨e', harrives.host, ((Runner.makes_runTask hpasses hhost).fails c' hmakes e' hfails).holding⟩
  | true =>
    refine ⟨.script (.ofHostError e'), harrives.function hhost, ?_⟩
    rcases c with ⟨task, w⟩
    cases task with
    | function f id args => exact (Runner.fails_function hpasses hmakes hfails).holding
    | _ => cases hhost

/-- The error of a chain arrives at its first call. -/
theorem exists_fails (h : Chain steps e depth c rest) :
    ∃ e', e.Arrives (c :: rest) e' ∧ Fails (exec steps depth c.task) c.world e' := by
  induction h with
  | raised fails => exact ⟨e, .refl e _, fails⟩
  | @inside depth c f name arity body id i args task scripted found fails =>
    rcases c with ⟨_, w⟩
    obtain rfl := task
    exact ⟨_, .of_function e ⟨_, List.mem_cons_self, rfl⟩, (Runner.fails_of_body scripted found fails).holding⟩
  | waits passes makes _ ih =>
    obtain ⟨e', harrives, hfails⟩ := ih
    exact exists_fails_of_waits passes makes harrives hfails

/-- What is left of a chain after some of its calls is a chain. -/
theorem of_suffix (h : Chain steps e depth c rest) {c' : Call} {rest' : List Call}
    (hsuffix : (c' :: rest') <:+ (c :: rest)) :
    ∃ depth', depth' + rest.length = depth + rest'.length ∧ Chain steps e depth' c' rest' := by
  induction h with
  | raised fails =>
    obtain ⟨rfl, rfl⟩ := List.cons.inj (hsuffix.eq_of_length_le (by simp))
    exact ⟨_, rfl, .raised fails⟩
  | inside task scripted found fails =>
    obtain ⟨rfl, rfl⟩ := List.cons.inj (hsuffix.eq_of_length_le (by simp))
    exact ⟨_, rfl, .inside task scripted found fails⟩
  | waits passes makes below ih =>
    rcases List.suffix_cons_iff.1 hsuffix with heq | hrest
    · obtain ⟨rfl, rfl⟩ := List.cons.inj heq
      exact ⟨_, rfl, .waits passes makes below⟩
    · obtain ⟨depth', hdepth, hchain⟩ := ih hrest
      refine ⟨depth', ?_, hchain⟩
      rw [List.length_cons]
      omega

/-- **Errors that nothing catches.** However many calls wait for one another, and through whatever generated bodies,
dispatchers, functions of script objects and other bodies: if none of the bodies catches errors, then the error that is
raised at the bottom arrives at every call of the chain, and at whoever makes the first one, be it by asking for it as a
body can or by having a script object answer. An error of a script arrives as it is, and any other with the wording
that it had at the bottom; it arrives as it is unless a function of a script object tells it. -/
theorem transparent (h : Chain steps e depth c rest) :
    (∀ c' rest', (c' :: rest') <:+ (c :: rest) → ∃ depth' e', depth' + rest.length = depth + rest'.length ∧
      e.Arrives (c' :: rest') e' ∧ Fails (exec steps depth' c'.task) c'.world e') ∧
    ∃ e', e.Arrives (c :: rest) e' ∧ Fails (exec steps depth c.task) c.world e' ∧
      (∀ r w, c ∈ Runner.requestCalls w r → Fails ((exec steps depth).perform r) w e') ∧
      ∀ p id op args w, c ∈ Runner.routeCalls p id op args w → Fails ((exec steps depth).route p id op args) w e' := by
  refine ⟨fun c' rest' hsuffix => ?_, ?_⟩
  · obtain ⟨depth', hdepth, hbelow⟩ := h.of_suffix hsuffix
    obtain ⟨e', harrives, hfails⟩ := hbelow.exists_fails
    exact ⟨depth', e', hdepth, harrives, hfails⟩
  · obtain ⟨e', harrives, hfails⟩ := h.exists_fails
    exact ⟨e', harrives, hfails, fun r w hc => (Runner.makes_perform r).fails c hc e' hfails,
      fun p id op args w hc => (Runner.composed_route p id op args).makes.fails c hc e' hfails⟩

end Chain

/-! ## Two buzzers, one of which sets off the other -/

/-- The bridge of the first script object. -/
def frontBuzzer : ObjectRef := ⟨0, ⟨3⟩⟩

/-- The bridge of the second script object. -/
def backBuzzer : ObjectRef := ⟨1, ⟨3⟩⟩

/-- An operation whose body calls the second buzzer. -/
def buzz : Method :=
  ⟨"buzz", [], .primitive .int, .public, "Buzzer", ⟨2⟩,
    .native (Expr.native (.callOn (.literal (.value (.object backBuzzer))) "buzz" []))⟩

/-- A class that declares it. -/
def buzzer : HostType :=
  ⟨⟨2⟩, "Buzzer", .cls, .public, some .root, [], [buzz], [], [], .system, none⟩

/-- A function of the first script object, which goes up to what the operation overrides. -/
def goesUp : ScriptFunction := .scripted "buzz" (some 0) (Expr.script (.overridden (some "buzz") []))

/-- A function of the second script object, whose body ends with an error. -/
def breaks (e : HostError) : ScriptFunction := .scripted "buzz" (some 0) fun _ _ _ => .fail e

/-- A script object with one function of its own. -/
def buzzes (f : ScriptFunction) (bridge : ObjectRef) : Instance :=
  ⟨TypeTable.extendScript (buzzer :: TypeTable.initial) "Script" buzzer.id [] [] [f], bridge, .first, []⟩

/-- The world with a subtype of the class, whose platform remembers the accessor of the operation, and with the two
script objects and their bridges. -/
def buzzing (e : HostError) : World :=
  match (⟨.weave, false⟩ : Emitter).proxy { World.initial {} with types := buzzer :: TypeTable.initial } buzzer buzzer
    [buzz] [] .system with
  | .error _ => {}
  | .ok (proxy, w) =>
    let accessor := (w.types.lookup? proxy).bind (·.methods[1]?)
    { w with
      objects := #[⟨proxy, [], .bound ⟨0⟩⟩, ⟨proxy, [], .bound ⟨1⟩⟩]
      arrays := #[#[.operation 0]]
      instances := #[buzzes goesUp frontBuzzer, buzzes (breaks e) backBuzzer]
      installed := [(proxy, ⟨0⟩)]
      platforms := #[⟨{}, ⟨0⟩, {}, {}, ⟨accessor.toList.map fun m => ((proxy, buzz.slot), ⟨buzz, m⟩), 1⟩, none⟩]
      held := [.instance ⟨0⟩, .instance ⟨1⟩] }

/-- An operation of the subtype. -/
def buzzingMethod (e : HostError) (n : Nat) : Method :=
  (((buzzing e).types.lookup? ⟨3⟩).bind (·.methods[n]?)).getD buzz

/-- A call that a call makes once it holds something more and has made new arrays without items. -/
def Call.next (c : Call) (task : Task) (holders : List Holder) (arrays : Nat) : Call :=
  ⟨task, { c.within.withHeld holders with arrays := c.world.arrays ++ Array.replicate arrays #[] }⟩

theorem exists_chain_buzzing (e : HostError) : ∃ c rest, rest.length = 7 ∧
    c ∈ Runner.requestCalls (buzzing e) (.call frontBuzzer "buzz" []) ∧ Chain 30 e 8 c rest := by
  let c₀ : Call := ⟨.method (buzzingMethod e 0) frontBuzzer [], buzzing e⟩
  let c₁ := c₀.next (.dispatch ⟨0⟩ frontBuzzer 0 []) [.object 0, .type ⟨3⟩] 1
  let c₂ := c₁.next (.function goesUp ⟨0⟩ []) [.instance ⟨0⟩] 0
  let c₃ := c₂.next (.method (buzzingMethod e 1) frontBuzzer []) [] 0
  let c₄ := c₃.next (.method buzz frontBuzzer []) [.object 0, .type ⟨3⟩] 0
  let c₅ := c₄.next (.method (buzzingMethod e 0) backBuzzer []) [] 0
  let c₆ := c₅.next (.dispatch ⟨0⟩ backBuzzer 0 []) [.object 1, .type ⟨3⟩] 1
  let c₇ := c₆.next (.function (breaks e) ⟨1⟩ []) [.instance ⟨1⟩] 0
  have hmakes {c c' : Call} {run : Runner} (h : (c.task.calls run 30 c.within)[0]? = some c') :
      c' ∈ c.task.calls run 30 c.within := List.mem_of_getElem? h
  refine ⟨c₀, [c₁, c₂, c₃, c₄, c₅, c₆, c₇], rfl, List.mem_of_getElem? (i := 0) rfl, ?_⟩
  refine .waits trivial (hmakes rfl) (.waits trivial (hmakes rfl) (.waits ?_ (hmakes rfl) ?_))
  · exact fun _ _ => Expr.passes_eval _ rfl fun _ => trivial
  refine .waits trivial (hmakes rfl) (.waits ?_ (hmakes rfl) ?_)
  · exact Expr.passes_eval _ rfl fun _ => trivial
  refine .waits trivial (hmakes rfl) (.waits trivial (hmakes rfl) ?_)
  exact .inside rfl rfl rfl rfl

/-- Whatever the second script object fails with, the caller of the first buzzer gets it. -/
theorem Chain.transparent_buzzing :
    ((exec 30 8).perform (.call frontBuzzer "buzz" []) (buzzing (.script ⟨"worn out"⟩))).1 =
      .error (.raised (.script ⟨"worn out"⟩)) ∧
    ∃ e, ((exec 30 8).perform (.call frontBuzzer "buzz" []) (buzzing (.nullPointer "battery"))).1 =
      .error (.raised e) ∧ e.message = "Null pointer: battery" := by
  constructor
  · obtain ⟨c, rest, -, hc, hchain⟩ := exists_chain_buzzing (.script ⟨"worn out"⟩)
    obtain ⟨-, e', harrives, -, hperform, -⟩ := transparent hchain
    obtain rfl := harrives.script _ rfl
    exact hperform _ _ hc
  · obtain ⟨c, rest, -, hc, hchain⟩ := exists_chain_buzzing (.nullPointer "battery")
    obtain ⟨-, e', harrives, -, hperform, -⟩ := transparent hchain
    exact ⟨e', hperform _ _ hc, harrives.message⟩

end Interpose
