import Interpose.Proofs.Builders
import Mathlib.Data.List.Induction

/-!
# Sequences of calls on a builder

Each call on a builder emits instructions, some with a constant or the label of a branch. After any sequence of calls
a builder holds what was emitted, and for each label the number of instructions before its latest mark. So finished
code is what was emitted, in order: an instruction refers to the constant that was given with it, although positions
of constants are cut to sixteen bits, and a branch leads to the latest mark of its label, whether that comes before
the branch or behind it. Nothing is finished only if a label was not marked or there are too many constants.
-/

namespace Interpose.CodeBuilder

/-! ## Calls -/

/-- When a branch is taken. -/
inductive BranchKind where
  | ifNull
  | ifNonNull
  | jump
deriving DecidableEq, Repr

/-- A branch to a position. -/
def BranchKind.instr : BranchKind → UInt32 → Instr
  | ifNull => .ifNull
  | ifNonNull => .ifNonNull
  | jump => .jump

/-- A call on a builder. -/
inductive Step where
  | declareLocal
  | load (n : UInt16)
  | store (n : UInt16)
  | loadAll (params : Nat)
  | pushInt (v : Int32)
  | pushStr (s : String)
  | pushNull
  | dup
  | pop
  | getStatic (slot : StaticSlot)
  | getField (name : String)
  | putField (name : String)
  | newArray
  | arrayLoad
  | arrayStore
  | box (kind : Kind)
  | unbox (kind : Kind)
  | checkCast (t : ValueType)
  | defineLabel
  | markLabel (label : Nat)
  | branch (kind : BranchKind) (label : Nat)
  | invokeSuper (m : Method)
  | invokeSuperCtor (c : Constructor)
  | invokeDispatch
  | newThrowable (e : HostException)
  | throw
  | ret
  | retVoid
  | retAs (t : ValueType)

/-- A builder after a call. -/
def apply (b : CodeBuilder) : Step → CodeBuilder
  | .declareLocal => b.declareLocal
  | .load n => b.load n
  | .store n => b.emit (.store n)
  | .loadAll params => b.loadAll params
  | .pushInt v => b.pushInt v
  | .pushStr s => b.pushStr s
  | .pushNull => b.emit .null
  | .dup => b.emit .dup
  | .pop => b.emit .pop
  | .getStatic slot => b.emit (.getStatic slot)
  | .getField name => b.getField name
  | .putField name => b.putField name
  | .newArray => b.emit .newArray
  | .arrayLoad => b.emit .arrayLoad
  | .arrayStore => b.emit .arrayStore
  | .box kind => b.emit (.box kind)
  | .unbox kind => b.emit (.unbox kind)
  | .checkCast t => b.checkCast t
  | .defineLabel => b.defineLabel.2
  | .markLabel label => b.markLabel label
  | .branch kind label => b.emitBranch kind.instr label
  | .invokeSuper m => b.invokeSuper m
  | .invokeSuperCtor c => b.invokeSuperCtor c
  | .invokeDispatch => b.emit .invokeDispatch
  | .newThrowable e => b.newThrowable e
  | .throw => b.emit .throw
  | .ret => b.emit .ret
  | .retVoid => b.emit .retVoid
  | .retAs t => b.retAs t

/-- A builder after a sequence of calls. -/
def run (b : CodeBuilder) (steps : List Step) : CodeBuilder := steps.foldl apply b

/-! ## What calls emit -/

/-- An instruction that a call emits: one that stands as it is, one that refers to a constant, or a branch to a
label. -/
inductive Emission where
  | plain (i : Instr)
  | constant (make : UInt16 → Instr) (c : Constant)
  | branch (kind : BranchKind) (label : Nat)

/-- The constant that an instruction refers to. -/
def Emission.constant? : Emission → Option Constant
  | constant _ c => some c
  | _ => none

/-- The instructions that a call emits. -/
def Step.emissions : Step → List Emission
  | declareLocal | defineLabel | markLabel _ => []
  | load n => [.plain (.load n)]
  | store n => [.plain (.store n)]
  | loadAll params => (List.range (params + 1)).map fun i => .plain (.load (UInt16.ofNat i))
  | pushInt v => [.constant .const (.int v)]
  | pushStr s => [.constant .const (.str s)]
  | pushNull => [.plain .null]
  | dup => [.plain .dup]
  | pop => [.plain .pop]
  | getStatic slot => [.plain (.getStatic slot)]
  | getField name => [.constant .getField (.field name)]
  | putField name => [.constant .putField (.field name)]
  | newArray => [.plain .newArray]
  | arrayLoad => [.plain .arrayLoad]
  | arrayStore => [.plain .arrayStore]
  | box kind => [.plain (.box kind)]
  | unbox kind => [.plain (.unbox kind)]
  | checkCast t => [.constant .checkCast (.type t)]
  | branch kind label => [.branch kind label]
  | invokeSuper m => [.constant .invokeSuper (.method m)]
  | invokeSuperCtor c => [.constant .invokeSuperCtor (.ctor c)]
  | invokeDispatch => [.plain .invokeDispatch]
  | newThrowable e => [.constant .newThrowable (.throwable e)]
  | throw => [.plain .throw]
  | ret => [.plain .ret]
  | retVoid => [.plain .retVoid]
  | retAs .void => [.plain .retVoid]
  | retAs (.primitive kind) => [.plain (.unbox kind), .plain .ret]
  | retAs t => [.constant .checkCast (.type t), .plain .ret]

/-- Whether a call declares a local. -/
def Step.declares : Step → Bool
  | declareLocal => true
  | _ => false

/-- The instructions that a sequence of calls emits, in order. -/
def emissions (steps : List Step) : List Emission := steps.flatMap Step.emissions

/-- How many locals a sequence of calls declares. -/
def declared (steps : List Step) : Nat := steps.countP Step.declares

/-- The constants of instructions, in order. -/
def constantsOf (emitted : List Emission) : List Constant := emitted.filterMap Emission.constant?

/-- Whether a sequence of calls marks a label last after it emitted a number of instructions. -/
def LastMarked (steps : List Step) (label n : Nat) : Prop :=
  ∃ before after, steps = before ++ .markLabel label :: after ∧ .markLabel label ∉ after ∧
    (emissions before).length = n

/-! ## Builders and what was emitted -/

/-- An instruction as a builder holds it, which refers to a constant by its position and does not know where it
branches to. -/
def Emission.instr (position : Nat) : Emission → Instr
  | plain i => i
  | constant make _ => make (UInt16.ofNat position)
  | branch kind _ => kind.instr 0xffffffff

/-- Adds an instruction. -/
def add (b : CodeBuilder) : Emission → CodeBuilder
  | .plain i => b.emit i
  | .constant make c => b.emitWith c make
  | .branch kind label => b.emitBranch kind.instr label

/-- Adds instructions, one after the other. -/
def addAll (b : CodeBuilder) (emitted : List Emission) : CodeBuilder := emitted.foldl add b

/-- A call adds what it emits, or emits nothing. -/
theorem apply_cases (b : CodeBuilder) (s : Step) :
    b.apply s = b.addAll s.emissions ∧ s.declares = false ∧ (∀ label, s ≠ .markLabel label) ∨
      s = .declareLocal ∨ s = .defineLabel ∨ ∃ label, s = .markLabel label := by
  cases s with
  | declareLocal => exact .inr (.inl rfl)
  | defineLabel => exact .inr (.inr (.inl rfl))
  | markLabel label => exact .inr (.inr (.inr ⟨label, rfl⟩))
  | loadAll params =>
      refine .inl ⟨?_, rfl, nofun⟩
      rw [addAll, Step.emissions, List.foldl_map]
      rfl
  | retAs t => cases t <;> exact .inl ⟨rfl, rfl, nofun⟩
  | _ => exact .inl ⟨rfl, rfl, nofun⟩

/-- Adding instructions changes neither locals nor marks. -/
theorem addAll_keeps (b : CodeBuilder) (emitted : List Emission) :
    (b.addAll emitted).name = b.name ∧ (b.addAll emitted).arity = b.arity ∧ (b.addAll emitted).locals = b.locals ∧
      (b.addAll emitted).marks = b.marks := by
  induction emitted generalizing b with
  | nil => exact ⟨rfl, rfl, rfl, rfl⟩
  | cons e emitted ih =>
      obtain ⟨hname, harity, hlocals, hmarks⟩ := ih (b.add e)
      cases e <;> exact ⟨hname, harity, hlocals, hmarks⟩

/-- Whether a builder holds what was emitted. -/
structure Holds (b : CodeBuilder) (emitted : List Emission) : Prop where
  size : b.instrs.size = emitted.length
  instrs : ∀ {n : Nat} {e : Emission}, emitted[n]? = some e →
    b.instrs[n]? = some (e.instr (constantsOf (emitted.take n)).length)
  constants : b.constants.toList = constantsOf emitted
  branches : ∀ {n label : Nat}, (n, label) ∈ b.branches ↔ ∃ kind, emitted[n]? = some (.branch kind label)
  sorted : b.branches.Pairwise fun x y => y.1 < x.1

section Holds

variable {b : CodeBuilder} {emitted : List Emission}

theorem instrs_add (b : CodeBuilder) (e : Emission) :
    (b.add e).instrs = b.instrs.push (e.instr b.constants.size) := by
  cases e <;> rfl

theorem constants_add (b : CodeBuilder) (e : Emission) :
    (b.add e).constants.toList = b.constants.toList ++ constantsOf [e] := by
  cases e with
  | constant make c => exact Array.toList_push
  | plain _ | branch _ _ => exact (List.append_nil _).symm

theorem mem_branches_add {e : Emission} {n label : Nat} : (n, label) ∈ (b.add e).branches ↔
    (n, label) ∈ b.branches ∨ n = b.instrs.size ∧ ∃ kind, e = .branch kind label := by
  cases e <;> simp [add, emit, emitWith, emitBranch, or_comm, eq_comm]

theorem holds_start (name : String) (params : Nat) : (start name params).Holds [] where
  size := rfl
  instrs h := by cases h
  constants := rfl
  branches := ⟨nofun, fun ⟨_, h⟩ => by cases h⟩
  sorted := .nil

theorem Holds.size_constants (h : b.Holds emitted) : b.constants.size = (constantsOf emitted).length := by
  rw [← h.constants, Array.length_toList]

theorem Holds.branch_lt (h : b.Holds emitted) {x : Nat × Nat} (hx : x ∈ b.branches) : x.1 < b.instrs.size := by
  obtain ⟨kind, he⟩ := h.branches.1 hx
  rw [h.size]
  exact (List.getElem?_eq_some_iff.1 he).1

/-- An item of a list with one more behind it is one of the list, or that one. -/
theorem getElem?_concat_eq_some {α : Type} {l : List α} {x y : α} {n : Nat} :
    (l ++ [x])[n]? = some y ↔ l[n]? = some y ∨ n = l.length ∧ x = y := by
  rw [List.getElem?_append]
  split
  next hlt => simp [Nat.ne_of_lt hlt]
  next hle =>
    rw [List.getElem?_eq_none (Nat.le_of_not_lt hle), List.getElem?_singleton]
    have heq : n - l.length = 0 ↔ n = l.length := by omega
    simp [heq]

/-- A builder that an instruction is added to holds it behind those before. -/
theorem Holds.add (h : b.Holds emitted) (e : Emission) : (b.add e).Holds (emitted ++ [e]) where
  size := by rw [instrs_add, Array.size_push, h.size, List.length_append, List.length_singleton]
  instrs {n x} hx := by
    rw [instrs_add]
    rcases getElem?_concat_eq_some.1 hx with hx | ⟨rfl, rfl⟩
    · have hlt := (List.getElem?_eq_some_iff.1 hx).1
      rw [List.take_append_of_le_length (Nat.le_of_lt hlt)]
      exact getElem?_push_of_eq_some (h.instrs hx) _
    · rw [List.take_left, ← h.size_constants, ← h.size]
      exact Array.getElem?_push_size
  constants := by rw [constants_add, h.constants, constantsOf, constantsOf, constantsOf, List.filterMap_append]
  branches {n label} := by
    rw [mem_branches_add, h.branches, h.size]
    simp only [getElem?_concat_eq_some, exists_or, exists_and_left]
  sorted := by
    cases e with
    | branch kind label => exact List.pairwise_cons.2 ⟨fun x hx => h.branch_lt hx, h.sorted⟩
    | plain _ | constant _ _ => exact h.sorted

/-- A builder that instructions are added to holds them behind those before. -/
theorem Holds.addAll (h : b.Holds emitted) (added : List Emission) : (b.addAll added).Holds (emitted ++ added) := by
  induction added generalizing b emitted with
  | nil => rwa [List.append_nil]
  | cons e added ih =>
      rw [← List.singleton_append, ← List.append_assoc]
      exact ih (h.add e)

/-- What a builder holds depends neither on locals nor on labels and marks. -/
theorem Holds.of_eq {b' : CodeBuilder} (h : b.Holds emitted) (hinstrs : b'.instrs = b.instrs)
    (hconstants : b'.constants = b.constants) (hbranches : b'.branches = b.branches) : b'.Holds emitted where
  size := by rw [hinstrs, h.size]
  instrs he := by rw [hinstrs, h.instrs he]
  constants := by rw [hconstants, h.constants]
  branches := by
    rw [hbranches]
    exact h.branches
  sorted := by
    rw [hbranches]
    exact h.sorted

end Holds

/-! ## Marks -/

section Marks

variable {b : CodeBuilder} {steps : List Step} {s : Step} {label m n : Nat}

theorem emissions_append (steps steps' : List Step) :
    emissions (steps ++ steps') = emissions steps ++ emissions steps' :=
  List.flatMap_append

theorem emissions_concat (steps : List Step) (s : Step) :
    emissions (steps ++ [s]) = emissions steps ++ s.emissions := by
  rw [emissions_append]
  exact congrArg _ (List.append_nil _)

/-- A mark is at the next instruction, and moves no other label. -/
theorem markOf?_markLabel (b : CodeBuilder) (label m : Nat) :
    (b.markLabel label).markOf? m = if m = label then some b.instrs.size else b.markOf? m := by
  rw [markOf?, markOf?, markLabel, List.find?_cons]
  by_cases hm : m = label
  · subst hm
    simp
  · have hother : (label == m) = false := beq_eq_false_iff_ne.2 (Ne.symm hm)
    rw [hother, if_neg hm]
    dsimp only
    rw [List.find?_filter]
    congr 2
    funext mark
    by_cases hmark : mark.1 = m <;> simp [hmark, hm]

/-- A call is the last that marks a label, or what was the last before it still is. -/
theorem lastMarked_concat : LastMarked (steps ++ [s]) label n ↔
    s = .markLabel label ∧ (emissions steps).length = n ∨ s ≠ .markLabel label ∧ LastMarked steps label n := by
  constructor
  · rintro ⟨before, after, heq, hafter, rfl⟩
    rcases List.eq_nil_or_concat' after with rfl | ⟨after, last, rfl⟩
    · obtain ⟨rfl, hs⟩ := List.append_inj' heq rfl
      exact .inl ⟨(List.cons.inj hs).1, rfl⟩
    · rw [← List.cons_append, ← List.append_assoc] at heq
      obtain ⟨rfl, hs⟩ := List.append_inj' heq rfl
      obtain rfl : s = last := (List.cons.inj hs).1
      rw [List.mem_append, List.mem_singleton, not_or] at hafter
      exact .inr ⟨fun h => hafter.2 h.symm, before, after, rfl, hafter.1, rfl⟩
  · rintro (⟨rfl, rfl⟩ | ⟨hs, before, after, rfl, hafter, rfl⟩)
    · exact ⟨steps, [], rfl, List.not_mem_nil, rfl⟩
    · refine ⟨before, after ++ [s], by rw [List.append_assoc, List.cons_append], ?_, rfl⟩
      rw [List.mem_append, List.mem_singleton, not_or]
      exact ⟨hafter, fun h => hs h.symm⟩

/-- A label that is marked is marked at last. -/
theorem exists_lastMarked_iff : (∃ n, LastMarked steps label n) ↔ .markLabel label ∈ steps := by
  constructor
  · rintro ⟨n, before, after, rfl, -⟩
    exact List.mem_append_right _ List.mem_cons_self
  · intro hmem
    obtain ⟨after, before, hsplit, hafter⟩ := List.eq_append_cons_of_mem (List.mem_reverse.2 hmem)
    refine ⟨_, before.reverse, after.reverse, ?_, fun h => hafter (List.mem_reverse.1 h), rfl⟩
    rw [← steps.reverse_reverse, hsplit, List.reverse_append, List.reverse_cons, List.append_assoc]
    rfl

theorem LastMarked.le (h : LastMarked steps label n) : n ≤ (emissions steps).length := by
  obtain ⟨before, after, rfl, -, rfl⟩ := h
  rw [emissions_append, List.length_append]
  exact Nat.le_add_right _ _

end Marks

/-! ## Sequences of calls -/

/-- Whether a builder of a name and a number of parameters is what a sequence of calls makes of it. -/
structure Built (b : CodeBuilder) (name : String) (params : Nat) (steps : List Step) : Prop where
  holds : b.Holds (emissions steps)
  marks : ∀ {label n : Nat}, b.markOf? label = some n ↔ LastMarked steps label n
  name : b.name = name
  arity : b.arity = UInt16.ofNat (params + 1)
  locals : b.locals = UInt16.ofNat (params + 1 + declared steps)

section Built

variable {b : CodeBuilder} {name : String} {params : Nat} {steps : List Step} {label n : Nat}

theorem built_start (name : String) (params : Nat) : (start name params).Built name params [] where
  holds := holds_start name params
  marks := ⟨nofun, fun ⟨before, after, heq, _⟩ => absurd heq (by simp)⟩
  name := rfl
  arity := rfl
  locals := rfl

theorem declared_concat (steps : List Step) (s : Step) :
    declared (steps ++ [s]) = declared steps + s.declares.toNat := by
  rw [declared, List.countP_append, List.countP_singleton]
  cases s.declares <;> rfl

/-- One more call. -/
theorem Built.apply (h : b.Built name params steps) (s : Step) : (b.apply s).Built name params (steps ++ [s]) := by
  have hlocals : UInt16.ofNat (params + 1 + declared (steps ++ [s])) = b.locals + UInt16.ofNat s.declares.toNat := by
    rw [h.locals, declared_concat, ← Nat.add_assoc, UInt16.ofNat_add]
  have hsilent {b' : CodeBuilder} (hnone : s.emissions = []) (hinstrs : b'.instrs = b.instrs)
      (hconstants : b'.constants = b.constants) (hbranches : b'.branches = b.branches) :
      b'.Holds (emissions (steps ++ [s])) := by
    rw [emissions_concat, hnone, List.append_nil]
    exact h.holds.of_eq hinstrs hconstants hbranches
  have hmarks (hs : ∀ label, s ≠ .markLabel label) {label n : Nat} :
      LastMarked (steps ++ [s]) label n ↔ LastMarked steps label n := by
    simp [lastMarked_concat, hs]
  rcases apply_cases b s with ⟨heq, hnone, hs⟩ | rfl | rfl | ⟨label, rfl⟩
  · obtain ⟨hname, harity, hkept, hmarked⟩ := b.addAll_keeps s.emissions
    rw [heq]
    refine ⟨?_, fun {label n} => ?_, hname.trans h.name, harity.trans h.arity, ?_⟩
    · rw [emissions_concat]
      exact h.holds.addAll _
    · rw [hmarks hs, markOf?, hmarked]
      exact h.marks
    · rw [hlocals, hkept, hnone]
      exact (UInt16.add_zero _).symm
  · exact ⟨hsilent rfl rfl rfl rfl, h.marks.trans (hmarks fun _ hs => by cases hs).symm, h.name, h.arity,
      hlocals.symm⟩
  · exact ⟨hsilent rfl rfl rfl rfl, h.marks.trans (hmarks fun _ hs => by cases hs).symm, h.name, h.arity,
      (UInt16.add_zero _).symm.trans hlocals.symm⟩
  · refine ⟨hsilent rfl rfl rfl rfl, fun {m n} => ?_, h.name, h.arity, (UInt16.add_zero _).symm.trans hlocals.symm⟩
    change (b.markLabel label).markOf? m = some n ↔ _
    rw [markOf?_markLabel, lastMarked_concat, ← h.holds.size, ← h.marks]
    by_cases hm : m = label
    · simp [hm]
    · simp [hm, Ne.symm hm]

/-- What a sequence of calls makes of a builder. -/
theorem built_run (name : String) (params : Nat) (steps : List Step) :
    ((start name params).run steps).Built name params steps := by
  induction steps using List.reverseRecOn with
  | nil => exact built_start name params
  | append_singleton steps s ih =>
      rw [run, List.foldl_concat]
      exact ih.apply s

end Built

/-! ## Finished code -/

/-- Whether a sequence of calls marks the label of every branch that it emits. -/
def AllMarked (steps : List Step) : Prop :=
  ∀ kind label, .branch kind label ∈ emissions steps → .markLabel label ∈ steps

/-- Whether a label is that of the first branch with a label that a sequence of calls never marks. -/
def FirstUnmarked (steps : List Step) (label : Nat) : Prop :=
  ∃ (n : Nat) (kind : BranchKind), (emissions steps)[n]? = some (.branch kind label) ∧ .markLabel label ∉ steps ∧
    ∀ m < n, ∀ (kind' : BranchKind) (label' : Nat), (emissions steps)[m]? = some (.branch kind' label') →
      .markLabel label' ∈ steps

/-- Whether code of a name and a number of parameters is what a sequence of calls emits: the instructions in order, each
with the very constant that was given with it, and each branch with the number of instructions before the latest mark of
its label. -/
structure Lays (code : Code) (name : String) (params : Nat) (steps : List Step) : Prop where
  name : code.name = name
  arity : code.arity.toNat = params + 1
  locals : code.locals.toNat = params + 1 + declared steps
  constants : code.constants.toList = constantsOf (emissions steps)
  size : code.instrs.size = (emissions steps).length
  plain : ∀ {n : Nat} {i : Instr}, (emissions steps)[n]? = some (.plain i) → code.instrs[n]? = some i
  constant : ∀ {n : Nat} {make : UInt16 → Instr} {c : Constant}, (emissions steps)[n]? = some (.constant make c) →
    ∃ k : UInt16, code.instrs[n]? = some (make k) ∧ k.toNat = (constantsOf ((emissions steps).take n)).length ∧
      code.constants[k.toNat]? = some c
  branch : ∀ {n : Nat} {kind : BranchKind} {label : Nat}, (emissions steps)[n]? = some (.branch kind label) →
    ∃ target : UInt32, code.instrs[n]? = some (kind.instr target) ∧ LastMarked steps label target.toNat

section Finish

variable {b : CodeBuilder} {emitted : List Emission} {name : String} {params : Nat} {steps : List Step} {code : Code}
  {label n : Nat}

/-- A constant comes behind those of the instructions before. -/
theorem getElem?_constantsOf {e : Emission} {c : Constant} (he : emitted[n]? = some e) (hc : e.constant? = some c) :
    (constantsOf emitted)[(constantsOf (emitted.take n)).length]? = some c := by
  obtain ⟨hlt, heq⟩ := List.getElem?_eq_some_iff.1 he
  have hdrop : emitted.drop n = e :: emitted.drop (n + 1) := by rw [← heq, List.drop_eq_getElem_cons hlt]
  have hsplit : constantsOf emitted = constantsOf (emitted.take n) ++ constantsOf (emitted.drop n) := by
    rw [constantsOf, constantsOf, constantsOf, ← List.filterMap_append, List.take_append_drop]
  rw [hsplit, List.getElem?_append_right Nat.le.refl, Nat.sub_self, hdrop, constantsOf, List.filterMap_cons_some hc]
  rfl

theorem Holds.wellFormed (h : b.Holds emitted) : b.WellFormed where
  branch j l hj := by
    obtain ⟨kind, he⟩ := h.branches.1 hj
    exact ⟨_, h.instrs he, by cases kind <;> nofun⟩
  distinct := List.pairwise_map.2 (h.sorted.imp Nat.ne_of_gt)

/-- Finishing leaves alone what is not a branch. -/
theorem Holds.getElem?_finish (h : b.Holds emitted) (hcode : b.finish = .ok code) {e : Emission}
    (he : emitted[n]? = some e) (hbranch : ∀ kind label, e ≠ .branch kind label) :
    code.instrs[n]? = some (e.instr (constantsOf (emitted.take n)).length) := by
  obtain ⟨instrs, hpatch, -, rfl⟩ := patched_of_finish hcode
  refine (getElem?_patch_of_ne hpatch fun hmem => ?_).trans (h.instrs he)
  obtain ⟨⟨m, label⟩, hx, rfl⟩ := List.mem_map.1 hmem
  obtain ⟨kind, he'⟩ := h.branches.1 (List.mem_reverse.1 hx)
  exact hbranch kind label (Option.some.inj (he.symm.trans he'))

/-- An instruction refers to the constant that was given with it. -/
theorem Holds.constant_finish (h : b.Holds emitted) (hcode : b.finish = .ok code) {make : UInt16 → Instr} {c : Constant}
    (he : emitted[n]? = some (.constant make c)) :
    ∃ k : UInt16, code.instrs[n]? = some (make k) ∧ k.toNat = (constantsOf (emitted.take n)).length ∧
      code.constants[k.toNat]? = some c := by
  obtain ⟨instrs, -, hle, hfields⟩ := patched_of_finish hcode
  have hc : code.constants[(constantsOf (emitted.take n)).length]? = some c := by
    rw [hfields, ← Array.getElem?_toList, h.constants]
    exact getElem?_constantsOf he rfl
  -- the position is cut to sixteen bits, but so many constants would not have been finished
  have hlt : (constantsOf (emitted.take n)).length < UInt16.size := by
    have hposition := (Array.getElem?_eq_some_iff.1 hc).1
    rw [hfields] at hposition
    exact Nat.lt_of_lt_of_le hposition (Nat.le_trans hle (by decide))
  refine ⟨_, h.getElem?_finish hcode he nofun, UInt16.toNat_ofNat_of_lt' hlt, ?_⟩
  rwa [UInt16.toNat_ofNat_of_lt' hlt]

/-- A branch leads to the latest mark of its label. -/
theorem Built.branch_finish (h : b.Built name params steps) (hsize : (emissions steps).length < UInt32.size)
    (hcode : b.finish = .ok code) {kind : BranchKind} (he : (emissions steps)[n]? = some (.branch kind label)) :
    ∃ target : UInt32, code.instrs[n]? = some (kind.instr target) ∧ LastMarked steps label target.toNat := by
  obtain ⟨p, hp, htarget⟩ :=
    branch_of_finish h.holds.wellFormed hcode (h.holds.branches.2 ⟨kind, he⟩) (h.holds.instrs he)
  have hlast := h.marks.1 hp
  refine ⟨UInt32.ofNat p, ?_, ?_⟩
  · rw [htarget]
    cases kind <;> rfl
  · rwa [UInt32.toNat_ofNat_of_lt' (Nat.lt_of_le_of_lt hlast.le hsize)]

theorem Built.exists_markOf?_iff (h : b.Built name params steps) :
    (∃ p, b.markOf? label = some p) ↔ .markLabel label ∈ steps :=
  (exists_congr fun _ => h.marks).trans exists_lastMarked_iff

theorem Built.exists_markOf? (h : b.Built name params steps) (hall : AllMarked steps) :
    ∀ x ∈ b.branches, ∃ p, b.markOf? x.2 = some p := by
  intro x hx
  obtain ⟨kind, he⟩ := h.holds.branches.1 hx
  exact h.exists_markOf?_iff.2 (hall kind x.2 (List.mem_of_getElem? he))

/-- If a label is not marked, one is that of the first branch whose label is not. -/
theorem exists_firstUnmarked_iff : (∃ label, FirstUnmarked steps label) ↔
    ∃ kind label, .branch kind label ∈ emissions steps ∧ .markLabel label ∉ steps := by
  constructor
  · rintro ⟨label, n, kind, he, hlabel, -⟩
    exact ⟨kind, label, List.mem_of_getElem? he, hlabel⟩
  · rintro ⟨kind, label, hmem, hlabel⟩
    obtain ⟨n, he⟩ := List.getElem?_of_mem hmem
    clear hmem
    induction n using Nat.strongRecOn generalizing kind label with
    | ind n ih =>
        -- either all branches before are marked, or there is an earlier one that is not
        by_cases hbefore : ∀ m < n, ∀ (kind' : BranchKind) (label' : Nat),
            (emissions steps)[m]? = some (.branch kind' label') → .markLabel label' ∈ steps
        · exact ⟨label, n, kind, he, hlabel, hbefore⟩
        · simp only [not_forall] at hbefore
          obtain ⟨m, hm, kind', label', he', hlabel'⟩ := hbefore
          exact ih m hm kind' label' hlabel' he'

theorem FirstUnmarked.not_allMarked (h : FirstUnmarked steps label) : ¬AllMarked steps := by
  obtain ⟨n, kind, he, hlabel, -⟩ := h
  exact fun hall => hlabel (hall kind label (List.mem_of_getElem? he))

theorem allMarked_or_exists_firstUnmarked (steps : List Step) :
    AllMarked steps ∨ ∃ label, FirstUnmarked steps label := by
  by_cases hall : AllMarked steps
  · exact .inl hall
  · simp only [AllMarked, not_forall] at hall
    obtain ⟨kind, label, hmem, hlabel⟩ := hall
    exact .inr (exists_firstUnmarked_iff.2 ⟨kind, label, hmem, hlabel⟩)

/-- The first branch whose label is not marked is reported. -/
theorem Built.finish_of_firstUnmarked (h : b.Built name params steps) (hfirst : FirstUnmarked steps label) :
    b.finish = .error (.unmarkedLabel name label) := by
  obtain ⟨n, kind, he, hlabel, hbefore⟩ := hfirst
  obtain ⟨after, before, hsplit⟩ := List.append_of_mem (h.holds.branches.2 ⟨kind, he⟩)
  have hsorted := h.holds.sorted
  rw [hsplit, List.pairwise_append] at hsorted
  have hlt := (List.pairwise_cons.1 hsorted.2.1).1
  rw [← h.name]
  refine finish_of_unmarked hsplit (fun x hx => ?_) ?_
  · have hmem : x ∈ b.branches := by
      rw [hsplit]
      exact List.mem_append_right _ (List.mem_cons_of_mem _ hx)
    obtain ⟨kind', he'⟩ := h.holds.branches.1 hmem
    exact h.exists_markOf?_iff.2 (hbefore x.1 (hlt x hx) kind' x.2 he')
  · exact Option.eq_none_iff_forall_ne_some.2 fun p hp => hlabel (h.exists_markOf?_iff.1 ⟨p, hp⟩)

/-- Nothing is finished if a label is not marked, nor if there are too many constants, and else code is. -/
theorem Built.finish_cases (h : b.Built name params steps) :
    (∃ label, FirstUnmarked steps label ∧ b.finish = .error (.unmarkedLabel name label)) ∨
      (AllMarked steps ∧ maxConstants < (constantsOf (emissions steps)).length ∧
        b.finish = .error (.constantPoolOverflow name)) ∨
      AllMarked steps ∧ (constantsOf (emissions steps)).length ≤ maxConstants ∧ ∃ code, b.finish = .ok code := by
  rcases allMarked_or_exists_firstUnmarked steps with hall | ⟨label, hfirst⟩
  · have hmarked := h.exists_markOf? hall
    rw [← h.holds.size_constants, ← h.name]
    rcases Nat.lt_or_ge maxConstants b.constants.size with hlt | hle
    · exact .inr (.inl ⟨hall, hlt, finish_of_overflow hmarked hlt⟩)
    · exact .inr (.inr ⟨hall, hle, exists_finish hmarked hle⟩)
  · exact .inl ⟨label, hfirst, h.finish_of_firstUnmarked hfirst⟩

/-- Finished code is what was emitted. -/
theorem Built.lays (h : b.Built name params steps) (hlocals : params + 1 + declared steps < UInt16.size)
    (hsize : (emissions steps).length < UInt32.size) (hcode : b.finish = .ok code) : Lays code name params steps := by
  obtain ⟨instrs, -, -, hfields⟩ := patched_of_finish hcode
  refine ⟨?_, ?_, ?_, ?_, ?_, fun he => h.holds.getElem?_finish hcode he nofun,
    h.holds.constant_finish hcode, h.branch_finish hsize hcode⟩
  · rw [hfields]
    exact h.name
  · rw [hfields]
    change b.arity.toNat = params + 1
    rw [h.arity, UInt16.toNat_ofNat_of_lt' (by omega)]
  · rw [hfields]
    change b.locals.toNat = params + 1 + declared steps
    rw [h.locals, UInt16.toNat_ofNat_of_lt' hlocals]
  · rw [hfields]
    exact h.holds.constants
  · rw [size_of_finish hcode, h.holds.size]

/-- Nothing is finished if a branch leads to a label that is never marked, and the first such branch is reported; else
nothing is finished if more than 65535 constants were added; else finished code is what was emitted. -/
theorem finish_run (name : String) (params : Nat) (steps : List Step)
    (hlocals : params + 1 + declared steps < UInt16.size) (hsize : (emissions steps).length < UInt32.size) :
    (∀ label, ((start name params).run steps).finish = .error (.unmarkedLabel name label) ↔ FirstUnmarked steps label) ∧
      ((∃ label, ((start name params).run steps).finish = .error (.unmarkedLabel name label)) ↔
        ∃ kind label, .branch kind label ∈ emissions steps ∧ .markLabel label ∉ steps) ∧
      (((start name params).run steps).finish = .error (.constantPoolOverflow name) ↔
        AllMarked steps ∧ 65535 < (constantsOf (emissions steps)).length) ∧
      (AllMarked steps → (constantsOf (emissions steps)).length ≤ 65535 →
        ∃ code, ((start name params).run steps).finish = .ok code ∧ Lays code name params steps) := by
  have hbuilt := built_run name params steps
  have hunmarked (label : Nat) :
      ((start name params).run steps).finish = .error (.unmarkedLabel name label) ↔ FirstUnmarked steps label := by
    refine ⟨fun herror => ?_, hbuilt.finish_of_firstUnmarked⟩
    rcases hbuilt.finish_cases with ⟨l, hfirst, heq⟩ | ⟨-, -, heq⟩ | ⟨-, -, code, heq⟩
    · cases heq.symm.trans herror
      exact hfirst
    · cases heq.symm.trans herror
    · cases heq.symm.trans herror
  refine ⟨hunmarked, ?_, ?_, fun hall hle => ?_⟩
  · rw [exists_congr hunmarked]
    exact exists_firstUnmarked_iff
  · rcases hbuilt.finish_cases with ⟨l, hfirst, heq⟩ | ⟨hall, hlt, heq⟩ | ⟨-, hle, code, heq⟩
    · exact ⟨fun herror => (nomatch heq.symm.trans herror), fun h => absurd h.1 hfirst.not_allMarked⟩
    · exact ⟨fun _ => ⟨hall, hlt⟩, fun _ => heq⟩
    · exact ⟨fun herror => (nomatch heq.symm.trans herror), fun h => absurd h.2 (Nat.not_lt.2 hle)⟩
  · rcases hbuilt.finish_cases with ⟨l, hfirst, -⟩ | ⟨-, hlt, -⟩ | ⟨-, -, code, heq⟩
    · exact absurd hall hfirst.not_allMarked
    · exact absurd hlt (Nat.not_lt.2 hle)
    · exact ⟨code, heq, hbuilt.lays hlocals hsize heq⟩

/-- A label that is marked twice, with a branch to it before the first mark and one between the two. -/
theorem finish_run_twiceMarked :
    let steps := [Step.load 1, .branch .ifNull 0, .pushInt 7, .markLabel 0, .pop, .pushStr "x", .branch .jump 0,
      .markLabel 0, .retVoid]
    1 + 1 + declared steps < UInt16.size ∧ (emissions steps).length < UInt32.size ∧ AllMarked steps ∧
      (constantsOf (emissions steps)).length ≤ 65535 ∧
      ∃ code, ((start "f" 1).run steps).finish = .ok code ∧ Lays code "f" 1 steps ∧
        code.instrs = #[.load 1, .ifNull 6, .const 0, .pop, .const 1, .jump 6, .retVoid] := by
  intro steps
  have hall : AllMarked steps := by
    intro kind label hmem
    change _ ∈ [Emission.plain (.load 1), .branch .ifNull 0, .constant .const (.int 7), .plain .pop,
      .constant .const (.str "x"), .branch .jump 0, .plain .retVoid] at hmem
    have hbranch : kind = .ifNull ∧ label = 0 ∨ kind = .jump ∧ label = 0 := by simpa using hmem
    have hlabel : label = 0 := hbranch.elim And.right And.right
    simp [hlabel, steps]
  have hlocals : 1 + 1 + declared steps < UInt16.size := by decide
  have hsize : (emissions steps).length < UInt32.size := by decide
  have hconstants : (constantsOf (emissions steps)).length ≤ 65535 := by decide
  obtain ⟨code, hcode, hlays⟩ := (finish_run "f" 1 steps hlocals hsize).2.2.2 hall hconstants
  refine ⟨hlocals, hsize, hall, hconstants, code, hcode, hlays, ?_⟩
  have heval : ((start "f" 1).run steps).finish = .ok ⟨"f", 2, 2,
      #[.load 1, .ifNull 6, .const 0, .pop, .const 1, .jump 6, .retVoid], #[.int 7, .str "x"]⟩ := by rfl
  cases hcode.symm.trans heval
  rfl

end Finish

end Interpose.CodeBuilder
