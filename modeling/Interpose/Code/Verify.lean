import Interpose.Code.Fault

/-!
# Verification

Code is verified before it is run: every instruction that can be reached refers to locals,
constants and targets that exist, never takes more from the stack than is there, and is always
reached with the same stack depth. The depths are found with a worklist, which empties because
each position gets its depth once.
-/

namespace Interpose

/-- What an instruction takes from the stack and puts on it. -/
structure StackEffect where
  pops : Nat
  pushes : Nat
deriving DecidableEq, Repr

/-- Where control can go after an instruction. -/
inductive Successors where
  | next
  | branch (target : UInt32)
  | jump (target : UInt32)
  | none
deriving DecidableEq

namespace Instr

/-- Where control can go after an instruction. -/
def successors : Instr → Successors
  | ifNull t => .branch t
  | ifNonNull t => .branch t
  | jump t => .jump t
  | throw => .none
  | ret => .none
  | retVoid => .none
  | _ => .next

/-- The target of a branch. -/
def target? (i : Instr) : Option UInt32 :=
  match i.successors with
  | .branch t => some t
  | .jump t => some t
  | .next => Option.none
  | .none => Option.none

end Instr

namespace Code

/-- The constant at a position, which must be of a sort. -/
def constant (code : Code) (c : UInt16) (sort : ConstantSort) (effect : Constant → Option StackEffect) :
    Except CodeFault StackEffect :=
  match code.constants[c.toNat]? with
  | none => .error (.constantOutOfRange c)
  | some k =>
    match effect k with
    | some e => .ok e
    | none => .error (.wrongConstant sort)

/-- The stack effect of an instruction, which must refer to locals and constants that exist. -/
def stackEffect (code : Code) : Instr → Except CodeFault StackEffect
  | .load n => if n < code.locals then .ok ⟨0, 1⟩ else .error (.localOutOfRange n)
  | .store n => if n < code.locals then .ok ⟨1, 0⟩ else .error (.localOutOfRange n)
  | .const c => code.constant c .literal fun
    | .int _ => some ⟨0, 1⟩
    | .str _ => some ⟨0, 1⟩
    | _ => none
  | .null => .ok ⟨0, 1⟩
  | .getStatic _ => .ok ⟨0, 1⟩
  | .getField c => code.constant c .field fun
    | .field _ => some ⟨1, 1⟩
    | _ => none
  | .putField c => code.constant c .field fun
    | .field _ => some ⟨2, 0⟩
    | _ => none
  | .newArray => .ok ⟨1, 1⟩
  | .arrayLoad => .ok ⟨2, 1⟩
  | .arrayStore => .ok ⟨3, 0⟩
  | .box _ => .ok ⟨1, 1⟩
  | .unbox _ => .ok ⟨1, 1⟩
  | .checkCast c => code.constant c .type fun
    | .type _ => some ⟨1, 1⟩
    | _ => none
  | .ifNull _ => .ok ⟨1, 0⟩
  | .ifNonNull _ => .ok ⟨1, 0⟩
  | .jump _ => .ok ⟨0, 0⟩
  | .invokeSuper c => code.constant c .method fun
    | .method m => some ⟨m.params.length + 1, if m.returns.isVoid then 0 else 1⟩
    | _ => none
  | .invokeSuperCtor c => code.constant c .constructor fun
    | .ctor k => some ⟨k.params.length + 1, 0⟩
    | _ => none
  | .invokeDispatch => .ok ⟨4, 1⟩
  | .newThrowable c => code.constant c .throwable fun
    | .throwable _ => some ⟨0, 1⟩
    | _ => none
  | .throw => .ok ⟨1, 0⟩
  | .ret => .ok ⟨1, 0⟩
  | .retVoid => .ok ⟨0, 0⟩
  | .dup => .ok ⟨1, 2⟩
  | .pop => .ok ⟨1, 0⟩

/-- The depth after the instruction at a position that is reached with a depth. -/
def depthAfter (code : Code) (depth : Nat) (i : Instr) : Except CodeFault Nat := do
  let effect ← code.stackEffect i
  if depth < effect.pops then .error .stackUnderflow
  else .ok (depth - effect.pops + effect.pushes)

/-- The positions that an instruction leads to, the first to be looked at next; a target must lie
within the code. -/
def reached (code : Code) (pc : Nat) (i : Instr) : Except CodeFault (List Nat) :=
  match i.successors with
  | .next => .ok [pc + 1]
  | .none => .ok []
  | .jump t => if code.instrs.size ≤ t.toNat then .error (.targetOutOfRange t) else .ok [t.toNat]
  | .branch t =>
    if code.instrs.size ≤ t.toNat then .error (.targetOutOfRange t) else .ok [pc + 1, t.toNat]

theorem length_reached_le {code : Code} {pc : Nat} {i : Instr} {next : List Nat}
    (h : code.reached pc i = .ok next) : next.length ≤ 2 := by
  unfold reached at h
  split at h
  · cases h; simp
  · cases h; simp
  · split at h
    · cases h
    · cases h; simp
  · split at h
    · cases h
    · cases h; simp

/-- How many positions have no depth yet. -/
def unvisited (depths : Array (Option Nat)) : Nat := depths.countP (·.isNone)

theorem unvisited_set_lt {depths : Array (Option Nat)} {pc d : Nat} (h : pc < depths.size)
    (hnone : depths[pc] = none) :
    unvisited (depths.set pc (some d) h) + 1 = unvisited depths := by
  unfold unvisited
  rw [Array.countP_set]
  have hpos : 0 < depths.countP (·.isNone) :=
    Array.countP_pos_iff.2 ⟨depths[pc], Array.getElem_mem h, by simp [hnone]⟩
  simp [hnone]
  omega

/-- Works off the positions that wait with the depths they are reached with, and keeps the depth of
each position and the greatest depth so far. -/
def explore (code : Code) (depths : Array (Option Nat)) (deepest : Nat) (waiting : List (Nat × Nat)) :
    Except (Nat × CodeFault) (Nat × Array (Option Nat)) :=
  match waiting with
  | [] => .ok (deepest, depths)
  | (pc, depth) :: rest =>
    if h : pc < depths.size then
      match hknown : depths[pc] with
      | some known =>
        if known = depth then explore code depths deepest rest
        else .error (pc, .inconsistentDepth known depth)
      | none =>
        match code.instrs[pc]? with
        | none => .error (pc, .fallsOffEnd)
        | some i =>
          match code.depthAfter depth i with
          | .error fault => .error (pc, fault)
          | .ok after =>
            match hreached : code.reached pc i with
            | .error fault => .error (pc, fault)
            | .ok next =>
              explore code (depths.set pc (some depth) h) (max deepest after)
                (next.map (·, after) ++ rest)
    else .error (pc, .fallsOffEnd)
termination_by 3 * unvisited depths + waiting.length
decreasing_by
  · simp
  · have h1 := unvisited_set_lt (d := depth) h hknown
    have h2 := length_reached_le hreached
    simp only [List.length_append, List.length_map, List.length_cons]
    omega

/-- The depths of the positions that can be reached, after the greatest of all. -/
def depths (code : Code) : Except (Nat × CodeFault) (Nat × Array (Option Nat)) :=
  code.explore (Array.replicate code.instrs.size none) 0 [(0, 0)]

/-- The greatest stack depth of the code, or what is wrong with it. -/
def verify (code : Code) : Except EmitError Nat :=
  if code.instrs.isEmpty then .error (.invalidCode code.name 0 .emptyBody)
  else
    match code.depths with
    | .ok (deepest, _) => .ok deepest
    | .error (pc, fault) => .error (.invalidCode code.name pc fault)

end Code

end Interpose
