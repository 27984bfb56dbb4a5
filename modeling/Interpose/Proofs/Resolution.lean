import Interpose.Script.Types
import Mathlib.Data.List.Basic

/-!
# What answers a call

The operations that a script type imports are looked up in the order in which the hierarchy declares
them, and one of them stands for every declaration of its slot. So what a script does not define is
answered by the operation that a call by name on the base reaches.
-/

namespace Interpose

/-- A search finds something in a list with an item that it takes. -/
theorem exists_find?_of_mem {α : Type} {l : List α} {q : α → Bool} {a : α} (ha : a ∈ l) (hq : q a = true) :
    ∃ k ∈ l, l.find? q = some k ∧ q k = true := by
  obtain ⟨k, hk⟩ := Option.isSome_iff_exists.1 (List.find?_isSome.2 ⟨a, ha, hq⟩)
  exact ⟨k, List.mem_of_find?_eq_some hk, hk, List.find?_some hk⟩

/-- What a search among the operations of a slot takes is of the slot. -/
theorem Method.and_occupies_iff {c : Bool} {m : Method} {s : Slot} :
    (c && m.occupies s) = true ↔ c = true ∧ m.slot = s := by
  rw [Bool.and_eq_true, occupies, beq_iff_eq]

/-- Whether an operation has a name and a number of parameters. -/
def Method.fits (m : Method) (name : String) (count : Nat) : Bool := m.name == name && m.params.length == count

theorem Method.fits_congr {a b : Method} {name : String} {count : Nat} (h : a.slot = b.slot) :
    a.fits name count = b.fits name count := by
  obtain ⟨hname, -, hparams⟩ := Slot.mk.inj h
  rw [fits, fits, hname, hparams]

/-- What two searches of a list find is the same if each would take what the other finds. -/
theorem find?_eq_of_find? {α : Type} {l : List α} {p q : α → Bool} {a b : α} (ha : l.find? p = some a)
    (hb : l.find? q = some b) (hq : q a = true) (hp : p b = true) : a = b := by
  -- the first item that one of the searches takes is taken by both
  induction l with
  | nil => cases ha
  | cons c l ih =>
      rw [List.find?_cons] at ha hb
      cases hpc : p c with
      | true =>
          rw [hpc] at ha
          cases ha
          rw [hq] at hb
          exact Option.some.inj hb
      | false =>
          cases hqc : q c with
          | true =>
              rw [hqc] at hb
              cases hb
              rw [hp] at hpc
              cases hpc
          | false =>
              rw [hpc] at ha
              rw [hqc] at hb
              exact ih ha hb

namespace TypeTable

variable {types : TypeTable} {found methods : List Method} {P : Method → Bool}

/-- Importing keeps for every slot the first declaration that calls can reach. -/
theorem find?_importNew (hP : ∀ a b : Method, a.slot = b.slot → P a = P b) :
    (importNew found methods).find? P = (found ++ methods.filter (·.isVirtual)).find? P := by
  induction methods generalizing found with
  | nil => rw [List.filter_nil, List.append_nil]; rfl
  | cons m methods ih =>
      rw [importNew, List.foldl_cons, ← importNew, ih]
      cases hvirtual : m.isVirtual with
      | false => simp [hvirtual]
      | true =>
          rw [List.filter_cons_of_pos hvirtual]
          by_cases hknown : found.any (·.slot == m.slot) = true
          · -- the slot is there already, so what is found first is found before
            simp only [hknown, Bool.not_true, Bool.and_false, Bool.false_eq_true, if_false,
              List.find?_append, List.find?_cons]
            obtain ⟨n, hn, hslot⟩ := List.any_eq_true.1 hknown
            cases hm : P m with
            | false => rfl
            | true =>
                have hsome : (found.find? P).isSome = true :=
                  List.find?_isSome.2 ⟨n, hn, (hP n m (beq_iff_eq.1 hslot)).trans hm⟩
                rw [Option.or_of_isSome hsome, Option.or_of_isSome hsome]
          · simp [hknown]

/-- What is found among the operations that are imported first is found. -/
theorem find?_importNew_of_some {m : Method} (h : found.find? P = some m) :
    (importNew found methods).find? P = some m := by
  induction methods generalizing found with
  | nil => exact h
  | cons n methods ih =>
      rw [importNew, List.foldl_cons, ← importNew]
      refine ih ?_
      split
      · rw [List.find?_append, h, Option.some_or]
      · exact h

/-- Whether a call of a name with arguments can be answered by an operation of a slot. -/
def answersWith (types : TypeTable) (name : String) (args : List Value) (m : Method) : Bool :=
  m.name == name && m.params.length == args.length && types.acceptsArgs m.params args

theorem answersWith_congr {name : String} {args : List Value} {a b : Method} (h : a.slot = b.slot) :
    types.answersWith name args a = types.answersWith name args b := by
  obtain ⟨hname, -, hparams⟩ := Slot.mk.inj h
  rw [answersWith, answersWith, hname, hparams]

/-- Whether calls by a name with arguments can reach an operation that can answer them. -/
def reachedWith (types : TypeTable) (name : String) (args : List Value) (m : Method) : Bool :=
  m.isVirtual && types.answersWith name args m

variable {id : TypeId} {name : String} {args : List Value} {m : Method}

/-- A call by name reaches the first of the operations that calls can reach that can answer it, or else the first of
them of the name with as many parameters. -/
theorem findMethodFor?_eq_or :
    types.findMethodFor? id name args =
      (((types.methodsOf id).filter (·.isVirtual)).find? (types.answersWith name args)).or
        (((types.methodsOf id).filter (·.isVirtual)).find? (·.fits name args.length)) := by
  have hcandidates : (types.methodsOf id).filter (·.answers name args.length) =
      ((types.methodsOf id).filter (·.isVirtual)).filter (·.fits name args.length) := by
    rw [List.filter_filter]
    congr 1
    funext m
    rw [Method.answers, Method.fits, Bool.and_comm _ m.isVirtual, Bool.and_assoc]
  rw [findMethodFor?, hcandidates]
  generalize (types.methodsOf id).filter (·.isVirtual) = reachable
  rw [List.find?_filter, List.head?_filter]
  simp only [Bool.decide_and, Bool.decide_eq_true]
  rfl

/-- A call by a name reaches operations of the name. -/
theorem name_of_reachedWith (h : types.reachedWith name args m = true) : m.name = name := by
  rw [reachedWith, answersWith, Bool.and_eq_true, Bool.and_eq_true, Bool.and_eq_true] at h
  exact beq_iff_eq.1 h.2.1.1

theorem find?_reachedWith (types : TypeTable) (name : String) (args : List Value) (l : List Method) :
    l.find? (types.reachedWith name args) = (l.filter (·.isVirtual)).find? (types.answersWith name args) := by
  rw [List.find?_filter]
  congr 1
  funext m
  simp [reachedWith]

/-- A call by name reaches the first operation that it can reach and that can answer it, if there is
one. -/
theorem findMethodFor?_of_find? (h : (types.methodsOf id).find? (types.reachedWith name args) = some m) :
    types.findMethodFor? id name args = some m := by
  rw [findMethodFor?_eq_or, ← find?_reachedWith, h, Option.some_or]

/-- What a call by name reaches is the first operation that it can reach and that can answer it, if its
parameters accept the arguments. -/
theorem find?_of_findMethodFor? (h : types.findMethodFor? id name args = some m)
    (haccepts : types.acceptsArgs m.params args = true) :
    (types.methodsOf id).find? (types.reachedWith name args) = some m := by
  cases hfirst : (types.methodsOf id).find? (types.reachedWith name args) with
  | some n => exact (findMethodFor?_of_find? hfirst).symm.trans h
  | none =>
      rw [findMethodFor?_eq_or, ← find?_reachedWith, hfirst, Option.none_or] at h
      obtain ⟨hm, hvirtual⟩ := List.mem_filter.1 (List.mem_of_find?_eq_some h)
      have hfits := List.find?_some h
      refine absurd ?_ (List.find?_eq_none.1 hfirst m hm)
      rw [reachedWith, answersWith, ← Method.fits, hvirtual, hfits, haccepts]
      rfl

/-- What a call of a slot reaches is of the slot. -/
theorem slot_of_findVirtual? {slot : Slot} (h : types.findVirtual? id slot = some m) : m.slot = slot := by
  have hm := List.find?_some h
  exact beq_iff_eq.1 (Bool.and_eq_true_iff.1 hm).2

/-- What a call of a slot reaches can be reached by calls of its name that it can answer. -/
theorem reachedWith_of_findVirtual? {slot : Slot} (h : types.findVirtual? id slot = some m)
    (hanswers : types.answersWith name args m = true) : types.reachedWith name args m = true := by
  have hm := List.find?_some h
  rw [reachedWith, (Bool.and_eq_true_iff.1 hm).1, hanswers]
  rfl

/-- What a search finds that takes all that calls of its slot can reach is what a call of its slot reaches. -/
theorem findVirtual?_of_search {q : Method → Bool} (h : (types.methodsOf id).find? q = some m)
    (hvirtual : m.isVirtual = true) (hq : ∀ n : Method, n.isVirtual = true → n.slot = m.slot → q n = true) :
    types.findVirtual? id m.slot = some m := by
  have hm : (m.isVirtual && m.occupies m.slot) = true := Method.and_occupies_iff.2 ⟨hvirtual, rfl⟩
  obtain ⟨n, -, hn, hreached⟩ := exists_find?_of_mem (q := fun n => n.isVirtual && n.occupies m.slot)
    (List.mem_of_find?_eq_some h) hm
  obtain ⟨hnvirtual, hslot⟩ := Method.and_occupies_iff.1 hreached
  rw [findVirtual?, hn, find?_eq_of_find? h hn hm (hq n hnvirtual hslot)]

/-- What a call by name reaches is what a call of its slot reaches. -/
theorem findVirtual?_of_find? (h : (types.methodsOf id).find? (types.reachedWith name args) = some m) :
    types.findVirtual? id m.slot = some m := by
  have hreached : types.reachedWith name args m = true := List.find?_some h
  obtain ⟨hvirtual, hanswers⟩ := Bool.and_eq_true_iff.1 hreached
  refine findVirtual?_of_search h hvirtual fun n hn hslot => ?_
  rw [reachedWith, hn, answersWith_congr hslot, hanswers]
  rfl

/-- So it is if the parameters do not accept the arguments. -/
theorem findVirtual?_of_findMethodFor? (h : types.findMethodFor? id name args = some m) :
    types.findVirtual? id m.slot = some m := by
  cases hfirst : (types.methodsOf id).find? (types.reachedWith name args) with
  | some n =>
      rw [findMethodFor?_of_find? hfirst, Option.some.injEq] at h
      exact h ▸ findVirtual?_of_find? hfirst
  | none =>
      -- nothing accepts the arguments, so the first operation with as many parameters is found
      rw [findMethodFor?_eq_or, ← find?_reachedWith, hfirst, Option.none_or, List.find?_filter] at h
      have hfound := List.find?_some h
      rw [decide_eq_true_eq] at hfound
      obtain ⟨hvirtual, hfits⟩ := hfound
      refine findVirtual?_of_search h hvirtual fun n hn hslot => ?_
      rw [decide_eq_true_eq]
      exact ⟨hn, (Method.fits_congr hslot).trans hfits⟩

/-- A call by name whose arguments a slot of the type accepts reaches an operation that accepts them,
the first one that does. -/
theorem exists_find?_reachedWith {slot : Slot} (hm : types.findVirtual? id slot = some m)
    (haccepts : types.acceptsArgs slot.params args = true) :
    ∃ n, (types.methodsOf id).find? (types.reachedWith slot.name args) = some n := by
  have hlength : slot.params.length = args.length := by
    rw [acceptsArgs, Bool.and_eq_true] at haccepts
    exact beq_iff_eq.1 haccepts.1
  have hanswers : types.answersWith slot.name args m = true := by
    obtain rfl := slot_of_findVirtual? hm
    simp only [Method.slot] at hlength haccepts
    simp [answersWith, Method.slot, hlength, haccepts]
  obtain ⟨n, -, hn, -⟩ :=
    exists_find?_of_mem (List.mem_of_find?_eq_some hm) (reachedWith_of_findVirtual? hm hanswers)
  exact ⟨n, hn⟩

end TypeTable

namespace ScriptType

variable {s : ScriptType} {types : TypeTable} {name : String} {args : List Value}

/-- A call that no function of the script takes is answered by the first imported operation that can answer it, or
else by the first one of the name with as many parameters. -/
theorem resolve?_of_functions {defined : List ScriptFunction} {imported : List Method}
    (hfunctions : s.functions = defined ++ imported.map .imported)
    (hnone : ∀ f ∈ defined, f.name = name → f.accepts args.length = false) :
    s.resolve? types name args =
      ((imported.find? (types.answersWith name args)).or (imported.find? (·.fits name args.length))).map
        .imported := by
  have hcandidates : (s.named name).filter (·.accepts args.length) =
      (imported.filter (·.fits name args.length)).map .imported := by
    have hdefined : defined.filter (fun f => f.name == name && f.accepts args.length) = [] := by
      rw [List.filter_eq_nil_iff]
      intro f hf hf'
      obtain ⟨hname, haccepts⟩ := Bool.and_eq_true_iff.1 hf'
      rw [hnone f hf (beq_iff_eq.1 hname)] at haccepts
      cases haccepts
    have hcomp : (fun f : ScriptFunction => f.name == name && f.accepts args.length) ∘ .imported =
        fun m : Method => m.fits name args.length := rfl
    rw [named, hfunctions, List.filter_filter]
    simp only [Bool.and_comm (ScriptFunction.accepts _ _)]
    rw [List.filter_append, hdefined, List.nil_append, List.filter_map, hcomp]
  have hscripted (l : List Method) : (l.map ScriptFunction.imported).find? (·.isScript) = none := by
    rw [List.find?_map, Option.map_eq_none_iff, List.find?_eq_none]
    exact fun _ _ => Bool.false_ne_true
  have himported (l : List Method) : (l.map ScriptFunction.imported).filter (fun f => !f.isScript) =
      l.map .imported := by
    rw [List.filter_map]
    exact congrArg (List.map ScriptFunction.imported) (List.filter_eq_self.2 fun _ _ => rfl)
  rw [resolve?, hcandidates]
  simp only [hscripted, himported]
  rw [List.find?_map, List.find?_filter, List.head?_map, List.head?_filter, Option.map_or]
  simp only [Bool.decide_and, Bool.decide_eq_true]
  rfl

/-- A call that no function of the script takes is answered by the first imported operation that can
answer it. -/
theorem resolve?_imported {defined : List ScriptFunction} {imported : List Method} {m : Method}
    (hfunctions : s.functions = defined ++ imported.map .imported)
    (hnone : ∀ f ∈ defined, f.name = name → f.accepts args.length = false)
    (hfound : imported.find? (types.answersWith name args) = some m) :
    s.resolve? types name args = some (.imported m) := by
  rw [resolve?_of_functions hfunctions hnone, hfound]
  rfl

/-- A call that the functions of a script do not take is answered by the first operation of its base
that can answer it, if there is one. -/
theorem resolve?_extendScript {older : TypeTable} {base : TypeId} {interfaces properties : List TypeId}
    {defined : List ScriptFunction} {label : String} {m : Method}
    (hbase : older.methodsOf base = types.methodsOf base)
    (hnone : ∀ f ∈ defined, f.name = name → f.accepts args.length = false)
    (hfound : (types.methodsOf base).find? (types.reachedWith name args) = some m) :
    (older.extendScript label base interfaces properties defined).resolve? types name args =
      some (.imported m) := by
  refine resolve?_imported rfl hnone ?_
  generalize interfaces ++ properties = further
  have hinherited : (TypeTable.importNew [] (older.methodsOf base)).find?
      (types.answersWith name args) = some m := by
    rw [TypeTable.find?_importNew fun a b h => TypeTable.answersWith_congr h, hbase, List.nil_append,
      ← TypeTable.find?_reachedWith, hfound]
  generalize TypeTable.importNew [] (older.methodsOf base) = inherited at hinherited
  -- what further types declare is only added behind
  induction further generalizing inherited with
  | nil => exact hinherited
  | cons i further ih => exact ih _ (TypeTable.find?_importNew_of_some hinherited)

end ScriptType

end Interpose
