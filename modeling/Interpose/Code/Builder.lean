import Interpose.Code.Fault

/-!
# Building code

A builder collects instructions, constants and labels. A branch is recorded with its label and
filled in by `finish`, so labels may be marked before or after the branches that use them.
-/

namespace Interpose

/-- Code under construction. -/
structure CodeBuilder where
  name : String
  arity : UInt16
  locals : UInt16
  instrs : Array Instr
  constants : Array Constant
  /-- How many labels there are. -/
  labels : Nat
  /-- The position of the latest mark of each label. -/
  marks : List (Nat × Nat)
  /-- The position and the label of each branch, latest first. -/
  branches : List (Nat × Nat)

namespace CodeBuilder

/-- A builder for a body with a number of parameters besides the receiver. -/
def start (name : String) (params : Nat) : CodeBuilder where
  name := name
  arity := UInt16.ofNat (params + 1)
  locals := UInt16.ofNat (params + 1)
  instrs := #[]
  constants := #[]
  labels := 0
  marks := []
  branches := []

/-- The local that holds a parameter. -/
def param (i : Nat) : UInt16 := UInt16.ofNat (i + 1)

/-- Adds a local that no parameter is in. -/
def declareLocal (b : CodeBuilder) : CodeBuilder := { b with locals := b.locals + 1 }

/-- Adds an instruction. -/
def emit (b : CodeBuilder) (i : Instr) : CodeBuilder := { b with instrs := b.instrs.push i }

/-- Adds a constant and an instruction that refers to it. -/
def emitWith (b : CodeBuilder) (c : Constant) (make : UInt16 → Instr) : CodeBuilder :=
  { b with
    constants := b.constants.push c
    instrs := b.instrs.push (make (UInt16.ofNat b.constants.size)) }

/-- Adds a branch whose target is not known yet. -/
def emitBranch (b : CodeBuilder) (make : UInt32 → Instr) (label : Nat) : CodeBuilder :=
  let position := b.instrs.size
  { b with
    branches := (position, label) :: b.branches
    instrs := b.instrs.push (make 0xffffffff) }

/-- A new label with the builder that knows it. -/
def defineLabel (b : CodeBuilder) : Nat × CodeBuilder := (b.labels, { b with labels := b.labels + 1 })

/-- Puts a label at the next instruction. -/
def markLabel (b : CodeBuilder) (label : Nat) : CodeBuilder :=
  { b with marks := (label, b.instrs.size) :: b.marks.filter (·.1 != label) }

/-- Pushes a local. -/
def load (b : CodeBuilder) (n : UInt16) : CodeBuilder := b.emit (.load n)
/-- Pushes an `int`. -/
def pushInt (b : CodeBuilder) (v : Int32) : CodeBuilder := b.emitWith (.int v) .const
/-- Pushes a text. -/
def pushStr (b : CodeBuilder) (s : String) : CodeBuilder := b.emitWith (.str s) .const
/-- Replaces an object by one of its fields. -/
def getField (b : CodeBuilder) (name : String) : CodeBuilder := b.emitWith (.field name) .getField
/-- Stores a value in a field of the object below it. -/
def putField (b : CodeBuilder) (name : String) : CodeBuilder := b.emitWith (.field name) .putField
/-- Checks the type of a value. -/
def checkCast (b : CodeBuilder) (t : ValueType) : CodeBuilder := b.emitWith (.type t) .checkCast
/-- Calls an operation as it stands. -/
def invokeSuper (b : CodeBuilder) (m : Method) : CodeBuilder := b.emitWith (.method m) .invokeSuper
/-- Calls a constructor of the superclass. -/
def invokeSuperCtor (b : CodeBuilder) (c : Constructor) : CodeBuilder :=
  b.emitWith (.ctor c) .invokeSuperCtor
/-- Pushes a new exception. -/
def newThrowable (b : CodeBuilder) (e : HostException) : CodeBuilder :=
  b.emitWith (.throwable e) .newThrowable

/-- Pushes the receiver and a number of parameters. -/
def loadAll (b : CodeBuilder) (params : Nat) : CodeBuilder :=
  (List.range (params + 1)).foldl (fun b i => b.load (UInt16.ofNat i)) b

/-- Returns the top of the stack as a value of a type. -/
def retAs (b : CodeBuilder) : ValueType → CodeBuilder
  | .void => b.emit .retVoid
  | .primitive kind => (b.emit (.unbox kind)).emit .ret
  | t => (b.checkCast t).emit .ret

/-- The position of a label, if it is marked. -/
def markOf? (b : CodeBuilder) (label : Nat) : Option Nat :=
  (b.marks.find? (·.1 == label)).map (·.2)

/-- A branch with its target filled in. -/
def retarget (target : UInt32) : Instr → Instr
  | .ifNull _ => .ifNull target
  | .ifNonNull _ => .ifNonNull target
  | _ => .jump target

/-- Fills in the targets of branches in the order in which they were added. -/
def patch (b : CodeBuilder) : List (Nat × Nat) → Array Instr → Except EmitError (Array Instr)
  | [], instrs => .ok instrs
  | (at_, label) :: rest, instrs =>
    match b.markOf? label with
    | none => .error (.unmarkedLabel b.name label)
    | some position => b.patch rest (instrs.modify at_ (retarget (UInt32.ofNat position)))

/-- How many constants a body can have at most. -/
def maxConstants : Nat := 65535

/-- The finished code. -/
def finish (b : CodeBuilder) : Except EmitError Code := do
  let instrs ← b.patch b.branches.reverse b.instrs
  if maxConstants < b.constants.size then .error (.constantPoolOverflow b.name)
  else .ok ⟨b.name, b.arity, b.locals, instrs, b.constants⟩

end CodeBuilder

end Interpose
