import Interpose.Proofs.Passing
import Interpose.Proofs.Primitives
import Interpose.Proofs.Returning

/-!
# Conversions at the borders of typed slots

A result of a script is converted twice, when it is taken for the type of the result and when the thunk puts it into
the form in which slots hold it. Whatever passes the first conversion passes the second, and comes out as what the type
accepts as it stands. Arguments are chosen by what parameters accept and converted by the same rule, so they are
converted exactly if they were chosen, converted arguments stay as they are, and boxing them loses nothing.
-/

namespace Interpose

/-- The name of a box is that of the kind that it is the box of. -/
theorem Kind.boxName_of_ofBoxName? {name : String} {kind : Kind} (h : Kind.ofBoxName? name = some kind) :
    kind.boxName = name := by
  have hname := List.find?_some h
  exact beq_iff_eq.1 hname

namespace Layer

/-- Whether the thunks of all operations with a type of results return `u` in a world once the dispatcher has answered
with `answer`. -/
def ThunksReturn (t : ValueType) (w : World) (answer u : Value) : Prop :=
  ∀ (name : String) (index : Nat) (op : Method) (target : Option Method) (code : Code) (unit : CompiledBody)
    (owner : TypeId) (place : Nat → Nat) (run : Runner) (locals : Array Value), op.returns = t →
    thunkCode name index op target = .ok code → unit.Realizes owner code place →
    unit.Ends run code place (thunkCall name index op).instrs.size ⟨locals, [answer]⟩ w (.ok u, w)

/-- Thunks return what the dispatcher answers in the form in which slots of the type hold it. -/
theorem thunksReturn_of_unboxOrCast {t : ValueType} {w : World} {answer u : Value}
    (h : w.types.unboxOrCast t answer = .ok u) : ThunksReturn t w answer u := by
  rintro name index op target code unit owner place run locals rfl hcode hrealizes
  have hresult : Action.withTypes (fun types => types.unboxOrCast op.returns answer) w = (.ok u, w) := by
    rw [Action.withTypes, h]
    rfl
  rw [← hresult]
  exact ends_thunkReturn hrealizes (within_thunkReturn hcode)

end Layer

namespace TypeTable

variable {types : TypeTable} {t : ValueType} {v w u : Value} {params : List ValueType} {args coerced : List Value}
  {kind : Kind} {p : Primitive}

/-! ## Values in the form of a slot -/

/-- What comes out of a box is the primitive of the kind that is asked for. -/
theorem unboxAs_eq_ok_iff :
    types.unboxAs kind v = .ok u ↔ ∃ p, v.primitive? = some p ∧ p.kind = kind ∧ u = .prim p := by
  unfold unboxAs
  cases v.primitive? with
  | none => by_cases hnull : v = .null <;> simp [hnull]
  | some p =>
      by_cases hkind : p.kind = kind
      · simp [hkind, eq_comm]
      · simp only [if_neg hkind, reduceCtorEq, Option.some.injEq, false_iff]
        rintro ⟨q, rfl, hq, -⟩
        exact hkind hq

/-- What comes out of a cast is the value in its box, which the type accepts. -/
theorem checkCast_eq_ok_iff : types.checkCast t v = .ok u ↔ types.accepts t v.box = true ∧ u = v.box := by
  unfold checkCast
  by_cases haccepts : types.accepts t v.box = true <;> simp [haccepts, eq_comm]

/-- A value can be put into the form in which a slot holds it exactly if it can be passed. -/
theorem exists_unboxOrCast_iff (hvoid : t ≠ .void) :
    (∃ u, types.unboxOrCast t v = .ok u) ↔ types.acceptsArgument t v = true := by
  cases t with
  | void => exact (hvoid rfl).elim
  | primitive kind =>
      simp only [unboxOrCast, unboxAs_eq_ok_iff]
      cases v <;> simp [Value.primitive?, acceptsArgument, accepts, Value.box]
  | reference _ | array _ => simp [unboxOrCast, checkCast_eq_ok_iff, acceptsArgument]

/-- A slot accepts the form in which it holds a value. -/
theorem accepts_of_unboxOrCast (h : types.unboxOrCast t v = .ok u) : types.accepts t u = true := by
  cases t with
  | void =>
      cases h
      rfl
  | primitive kind =>
      obtain ⟨p, -, hkind, rfl⟩ := unboxAs_eq_ok_iff.1 h
      exact beq_iff_eq.2 hkind
  | reference _ | array _ =>
      obtain ⟨haccepts, rfl⟩ := checkCast_eq_ok_iff.1 h
      exact haccepts

/-- A value that a slot accepts is in the form in which the slot holds it. -/
theorem unboxOrCast_of_accepts (h : types.accepts t v = true) : types.unboxOrCast t v = .ok v := by
  have hbox := box_of_accepts h
  cases t with
  | void => cases v <;> first | rfl | cases h
  | primitive kind =>
      obtain ⟨p, rfl, hkind⟩ := hbox
      exact if_pos hkind
  | reference _ | array _ =>
      have hbox : v.box = v := hbox
      exact checkCast_eq_ok_iff.2 ⟨by rwa [hbox], hbox.symm⟩

/-! ## Results of scripts -/

/-- What a result is taken for: nothing, a primitive of the kind that the type holds, or anything that is in its box and
that the type accepts as it stands. -/
theorem toHost_cases (h : types.toHost t v = .ok w) :
    t = .void ∧ w = .void ∨ (∃ p : Primitive, w = .boxed p ∧ t.boxedKind? = some p.kind) ∨
      t.kind? = none ∧ t ≠ .void ∧ w.box = w ∧ types.accepts t w = true ∧
        (t.boxedKind? = none ∨ w.primitive? = none) := by
  unfold toHost at h
  dsimp only at h
  generalize hreference : (if types.accepts t v.box then Except.ok v.box
    else Except.error (types.mismatch t.text v.box)) = reference at h
  have haccepted (hr : reference = .ok w) (hvoid : t ≠ .void) (hheld : t.boxedKind? = none ∨ v.primitive? = none) :
      t.kind? = none ∧ t ≠ .void ∧ w.box = w ∧ types.accepts t w = true ∧
        (t.boxedKind? = none ∨ w.primitive? = none) := by
    rw [← hreference] at hr
    split at hr
    next haccepts =>
      cases hr
      have hprimitive : v.box.primitive? = v.primitive? := by cases v <;> rfl
      refine ⟨?_, hvoid, v.box_box, haccepts, hprimitive ▸ hheld⟩
      cases t with
      | primitive _ => cases v <;> cases haccepts
      | _ => rfl
    next => cases hr
  split at h
  · cases h
    exact .inl ⟨rfl, rfl⟩
  next hvoid hkind => exact .inr (.inr (haccepted h hvoid (.inl hkind)))
  next kind hvoid hkind =>
    split at h
    next p hp =>
      split at h
      next q hq =>
        cases h
        exact .inr (.inl ⟨q, rfl, by rw [hkind, Primitive.kind_of_convert hq]⟩)
      next => cases h
    next hp =>
      split at h
      next => cases h
      next => exact .inr (.inr (haccepted h hvoid (.inr hp)))

/-- Slots of a type hold a primitive of the kind that the type holds, raw or in its box. -/
theorem exists_unboxOrCast_boxed (types : TypeTable) (hkind : t.boxedKind? = some p.kind) :
    ∃ u, types.unboxOrCast t (.boxed p) = .ok u ∧ u.primitive? = some p := by
  cases t with
  | void | array _ => cases hkind
  | primitive kind =>
      cases hkind
      exact ⟨.prim p, if_pos rfl, rfl⟩
  | reference name =>
      have hname : (name == p.kind.boxName) = true := beq_iff_eq.2 (Kind.boxName_of_ofBoxName? hkind).symm
      have haccepts : types.accepts (.reference name) (.boxed p) = true := Bool.or_eq_true_iff.2 (.inl hname)
      exact ⟨.boxed p, unboxOrCast_of_accepts haccepts, rfl⟩

/-- What passes as a result of a type has a form in which slots of the type hold it, which passes for the same. -/
theorem exists_unboxOrCast_of_toHost (h : types.toHost t v = .ok w) :
    ∃ u, types.unboxOrCast t w = .ok u ∧ types.toHost t u = .ok w := by
  rcases toHost_cases h with ⟨rfl, rfl⟩ | ⟨p, rfl, hkind⟩ | ⟨hkind, hvoid, hbox, haccepts, hheld⟩
  · exact ⟨.void, rfl, rfl⟩
  · obtain ⟨u, hu, hp⟩ := exists_unboxOrCast_boxed types hkind
    exact ⟨u, hu, toHost_of_primitive hp hkind⟩
  · have hnotVoid : t.isVoid = false := by cases t <;> first | rfl | exact (hvoid rfl).elim
    have hresult : types.toHost t w = .ok w.box := toHost_of_accepts (by rwa [hbox]) hheld hkind hnotVoid
    rw [hbox] at hresult
    exact ⟨w, unboxOrCast_of_accepts haccepts, hresult⟩

/-- **The conversions of results agree.** Whatever passes as a result of a script for a type can be put into the form in
which slots of the type hold it. A slot accepts that form as it stands, for a type of raw primitives it is one of
exactly that kind, and as a result it passes for the same value again. So no thunk that gets the result from its
dispatcher fails: it returns that form. -/
theorem unboxOrCast_toHost (h : types.toHost t v = .ok w) :
    ∃ u, types.unboxOrCast t w = .ok u ∧ types.accepts t u = true ∧
      (∀ kind, t.kind? = some kind → ∃ p : Primitive, u = .prim p ∧ p.kind = kind) ∧ types.toHost t u = .ok w ∧
      ∀ world : World, world.types = types → Layer.ThunksReturn t world w u := by
  obtain ⟨u, hu, hagain⟩ := exists_unboxOrCast_of_toHost h
  have haccepts := accepts_of_unboxOrCast hu
  refine ⟨u, hu, haccepts, fun kind hkind => ?_, hagain, ?_⟩
  · have hraw := box_of_accepts haccepts
    rwa [hkind] at hraw
  · rintro world rfl
    exact Layer.thunksReturn_of_unboxOrCast hu

/-- An operation that weighs something to a `short`. -/
def weighShort : Method := { weighNumber with returns := .primitive .short }

/-- Ten thousand millions are more than an `int` holds, and the low half of the greatest `int` is minus one as a
`short`, which the thunk returns in no box. -/
theorem unboxOrCast_toHost_narrowed :
    initial.toHost (.primitive .short) (.prim (.double 0x4202a05f20000000)) = .ok (.boxed (.short (-1))) ∧
      initial.unboxOrCast (.primitive .short) (.boxed (.short (-1))) = .ok (.prim (.short (-1))) ∧
      initial.accepts (.primitive .short) (.prim (.short (-1))) = true ∧
      initial.toHost (.primitive .short) (.prim (.short (-1))) = .ok (.boxed (.short (-1))) ∧
      ∃ code, Layer.thunkCode "Gauge_Proxy" 0 weighShort none = .ok code ∧
        CompiledBody.Ends ⟨code.name, ⟨2⟩, code.locals, code.constants, .woven code.instrs⟩ (exec 0 0) code id
          (Layer.thunkCall "Gauge_Proxy" 0 weighShort).instrs.size ⟨#[], [.boxed (.short (-1))]⟩ (World.initial {})
          (.ok (.prim (.short (-1))), World.initial {}) := by
  have hpasses : initial.toHost (.primitive .short) (.prim (.double 0x4202a05f20000000)) = .ok (.boxed (.short (-1))) :=
    rfl
  obtain ⟨u, hu, haccepts, -, hagain, hthunk⟩ := unboxOrCast_toHost hpasses
  obtain rfl : Value.prim (.short (-1)) = u := Except.ok.inj hu
  obtain ⟨code, hcode⟩ : ∃ code, Layer.thunkCode "Gauge_Proxy" 0 weighShort none = .ok code :=
    Layer.exists_thunkCode_iff.2 (by decide)
  exact ⟨hpasses, hu, haccepts, hagain, code, hcode,
    hthunk (World.initial {}) rfl _ _ _ _ _ _ _ _ _ _ rfl hcode
      ⟨rfl, rfl, rfl, rfl, Image.presents_woven code.instrs⟩⟩

/-! ## Arguments -/

theorem coerceEach_cons_eq_ok : types.coerceEach (t :: params) (v :: args) = .ok coerced ↔
    ∃ u, types.unboxOrCast t v = .ok u ∧ ∃ rest, types.coerceEach params args = .ok rest ∧ u :: rest = coerced := by
  simp only [coerceEach, bind_eq_ok, pure_eq_ok]

/-- Arguments can be converted each for its parameter exactly if each of them can be passed. -/
theorem exists_coerceEach_iff (hvoid : ValueType.void ∉ params) (hlength : params.length = args.length) :
    (∃ coerced, types.coerceEach params args = .ok coerced) ↔
      List.Forall₂ (fun t v => types.acceptsArgument t v = true) params args := by
  induction params generalizing args with
  | nil =>
      obtain rfl := List.length_eq_zero_iff.1 hlength.symm
      exact ⟨fun _ => .nil, fun _ => ⟨[], rfl⟩⟩
  | cons t params ih =>
      obtain ⟨v, args, rfl⟩ := List.exists_cons_of_length_eq_add_one hlength.symm
      rw [List.mem_cons, not_or] at hvoid
      rw [List.forall₂_cons, ← exists_unboxOrCast_iff (Ne.symm hvoid.1), ← ih hvoid.2 (Nat.succ.inj hlength)]
      simp only [coerceEach_cons_eq_ok]
      constructor
      · rintro ⟨_, u, hu, rest, hrest, -⟩
        exact ⟨⟨u, hu⟩, rest, hrest⟩
      · rintro ⟨⟨u, hu⟩, rest, hrest⟩
        exact ⟨_, u, hu, rest, hrest, rfl⟩

/-- Parameters accept converted arguments. -/
theorem accepts_of_coerceEach (hlength : params.length = args.length) (h : types.coerceEach params args = .ok coerced) :
    List.Forall₂ (fun t u => types.accepts t u = true) params coerced := by
  induction params generalizing args coerced with
  | nil =>
      obtain rfl := List.length_eq_zero_iff.1 hlength.symm
      cases h
      exact .nil
  | cons t params ih =>
      obtain ⟨v, args, rfl⟩ := List.exists_cons_of_length_eq_add_one hlength.symm
      obtain ⟨u, hu, rest, hrest, rfl⟩ := coerceEach_cons_eq_ok.1 h
      exact .cons (accepts_of_unboxOrCast hu) (ih (Nat.succ.inj hlength) hrest)

/-- Arguments that parameters accept are in the form in which the parameters hold them. -/
theorem coerceEach_of_accepts (h : List.Forall₂ (fun t v => types.accepts t v = true) params args) :
    types.coerceEach params args = .ok args := by
  induction h with
  | nil => rfl
  | cons hv _ ih => exact coerceEach_cons_eq_ok.2 ⟨_, unboxOrCast_of_accepts hv, _, ih, rfl⟩

theorem coerceArgs_eq_ok_iff : types.coerceArgs params args = .ok coerced ↔
    params.length = args.length ∧ types.coerceEach params args = .ok coerced := by
  unfold coerceArgs
  by_cases hlength : params.length = args.length <;> simp [hlength]

/-- **Choice and conversion of arguments agree.** Arguments are converted for parameters that are not nothing exactly if
they can be passed for them; then each parameter accepts what it gets as it stands, and converting that again changes
nothing. Arguments that the parameters accept as they stand are what comes out when they are boxed and converted. -/
theorem coerceArgs_exact (types : TypeTable) (args : List Value) (hvoid : ValueType.void ∉ params) :
    ((∃ coerced, types.coerceArgs params args = .ok coerced) ↔ types.acceptsArgs params args = true) ∧
      (∀ coerced, types.coerceArgs params args = .ok coerced →
        List.Forall₂ (fun t u => types.accepts t u = true) params coerced ∧
          types.coerceArgs params coerced = .ok coerced) ∧
      (List.Forall₂ (fun t v => types.accepts t v = true) params args →
        types.coerceArgs params (args.map Value.box) = .ok args) := by
  refine ⟨?_, fun coerced h => ?_, coerceArgs_box⟩
  · simp only [coerceArgs_eq_ok_iff, exists_and_left]
    constructor
    · rintro ⟨hlength, hconverted⟩
      exact acceptsArgs_iff.2 ((exists_coerceEach_iff hvoid hlength).1 hconverted)
    · intro h
      have hlength := (acceptsArgs_iff.1 h).length_eq
      exact ⟨hlength, (exists_coerceEach_iff hvoid hlength).2 (acceptsArgs_iff.1 h)⟩
  · obtain ⟨hlength, hconverted⟩ := coerceArgs_eq_ok_iff.1 h
    have haccepted := accepts_of_coerceEach hlength hconverted
    exact ⟨haccepted, coerceArgs_eq_ok_iff.2 ⟨haccepted.length_eq, coerceEach_of_accepts haccepted⟩⟩

/-- A number, anything at all and an array of numbers. -/
def mixedParams : List ValueType := [.primitive .int, .object, .array (.primitive .long)]

/-- A number in its box, a number in none and null. -/
def mixedArgs : List Value := [.boxed (.int 7), .prim (.float 0x7fc00001), .null]

/-- The number that is asked for is taken out of its box, and the one that stands for anything is put into one. -/
theorem coerceArgs_exact_mixed : ∃ coerced,
    ValueType.void ∉ mixedParams ∧ initial.acceptsArgs mixedParams mixedArgs = true ∧
      initial.coerceArgs mixedParams mixedArgs = .ok coerced ∧
      List.Forall₂ (fun t u => initial.accepts t u = true) mixedParams coerced ∧
      initial.coerceArgs mixedParams coerced = .ok coerced ∧
      initial.coerceArgs mixedParams (coerced.map Value.box) = .ok coerced ∧
      coerced = [.prim (.int 7), .boxed (.float 0x7fc00001), .null] := by
  have hvoid : ValueType.void ∉ mixedParams := by decide
  have hpassed : initial.acceptsArgs mixedParams mixedArgs = true := rfl
  obtain ⟨hconverted, hkept, -⟩ := coerceArgs_exact initial mixedArgs hvoid
  obtain ⟨coerced, hcoerced⟩ := hconverted.2 hpassed
  obtain ⟨haccepted, hagain⟩ := hkept coerced hcoerced
  obtain ⟨-, -, hboxed⟩ := coerceArgs_exact initial coerced hvoid
  exact ⟨coerced, hvoid, hpassed, hcoerced, haccepted, hagain, hboxed haccepted, (Except.ok.inj hcoerced).symm⟩

end TypeTable

end Interpose
