import Interpose.Run.Task
import Interpose.Code.ByteCode

/-!
# Frames

How generated bodies run. `Frame.step` gives every instruction its meaning; the two back-ends only
differ in how the next instruction is fetched and in what a branch target stands for.
-/

namespace Interpose

/-- What a generated body did that no verified body does. -/
inductive FrameFault where
  | code (fault : CodeFault)
  | expectedObject (found : String)
  | expectedArray (found : String)
  | expectedInt
  | expectedOperation (found : String)
  | expectedDispatcher (found : String)
  /-- A static slot of a type that has none. -/
  | noStaticSlots
  | notThrowable (found : String)
  /-- There is no instruction to go on with. -/
  | ranOffEnd
  | undecodable (offset : Nat)
  /-- The type that defines the body is not alive any more. -/
  | ownerDropped
deriving DecidableEq

/-- The wording of a fault. -/
def FrameFault.message : FrameFault → String
  | code fault => fault.message
  | expectedObject found => "expected object, found " ++ found
  | expectedArray found => "expected array, found " ++ found
  | expectedInt => "expected int"
  | expectedOperation found => "expected operation, found " ++ found
  | expectedDispatcher found => "expected dispatcher, found " ++ found
  | noStaticSlots => "static slot on a non-generated type"
  | notThrowable found => "cannot throw " ++ found
  | ranOffEnd => "control fell off the end"
  | undecodable offset => "malformed byte code at offset " ++ toString offset
  | ownerDropped => "defining type was dropped"

/-- The state of a running body; the top of the stack comes first. -/
structure Frame where
  locals : Array Value
  stack : List Value
deriving DecidableEq

/-- What happens after an instruction. -/
inductive Flow where
  | next (f : Frame)
  | jump (target : UInt32) (f : Frame)
  | ret (v : Value)
deriving DecidableEq

namespace Frame

/-- The frame of a body that starts: the receiver and the arguments, then null in what is left of
the locals. -/
def start (locals : UInt16) (this : ObjectRef) (args : List Value) : Frame where
  locals :=
    (Value.object this :: args).toArray ++ Array.replicate (locals.toNat - (args.length + 1)) .null
  stack := []

/-- A frame with a value on its stack. -/
def push (f : Frame) (v : Value) : Frame := { f with stack := v :: f.stack }

/-- What a frame holds. -/
def holders (f : Frame) : List Holder := (f.locals.toList ++ f.stack).flatMap (·.holders)

end Frame

namespace CompiledBody

variable (unit : CompiledBody)

/-- The error that a body is faulty. -/
def faultError (fault : FrameFault) : HostError :=
  .invalidCode (unit.name ++ ": " ++ fault.message)

/-- Ends with a fault. -/
def fault {α : Type} (fault : FrameFault) : Action α := Action.raise (unit.faultError fault)

/-- Takes the top of the stack. -/
def pop (f : Frame) : Action (Value × Frame) :=
  match f.stack with
  | v :: rest => return (v, { f with stack := rest })
  | [] => unit.fault (.code .stackUnderflow)

/-- Takes a number of values, the deepest first. -/
def popMany (f : Frame) (n : Nat) : Action (List Value × Frame) :=
  let taken := f.stack.take n
  if taken.length < n then unit.fault (.code .stackUnderflow)
  else return (taken.reverse, { f with stack := f.stack.drop n })

/-- Takes an object. -/
def popObject (f : Frame) : Action (ObjectRef × Frame) := do
  let (v, f) ← unit.pop f
  match v with
  | .object o => return (o, f)
  | .null => Action.raise (.nullPointer (unit.name ++ ": null receiver"))
  | v => unit.fault (.expectedObject ((← get).types.typeName v))

/-- Takes an array. -/
def popArray (f : Frame) : Action (ArrayId × Frame) := do
  let (v, f) ← unit.pop f
  match v with
  | .array id => return (id, f)
  | .null => Action.raise (.nullPointer (unit.name ++ ": null array"))
  | v => unit.fault (.expectedArray ((← get).types.typeName v))

/-- Takes an index or a length. -/
def popIndex (f : Frame) : Action (Int × Frame) := do
  let (v, f) ← unit.pop f
  match v.int32? with
  | some i => return (i.toInt, f)
  | none => unit.fault .expectedInt

/-- The constant at a position. -/
def constant (c : UInt16) : Action Constant :=
  match unit.constants[c.toNat]? with
  | some k => return k
  | none => unit.fault (.code (.constantOutOfRange c))

/-- The field name at a position. -/
def fieldName (c : UInt16) : Action String := do
  match ← unit.constant c with
  | .field name => return name
  | _ => unit.fault (.code (.wrongConstant .field))

/-- Executes one instruction. -/
def step (run : Runner) (f : Frame) : Instr → Action Flow
  | .load n =>
    match f.locals[n.toNat]? with
    | some v => return .next (f.push v)
    | none => unit.fault (.code (.localOutOfRange n))
  | .store n => do
    let (v, f) ← unit.pop f
    if n.toNat < f.locals.size then return .next { f with locals := f.locals.setIfInBounds n.toNat v }
    else unit.fault (.code (.localOutOfRange n))
  | .const c => do
    match ← unit.constant c with
    | .int v => return .next (f.push (.ofInt32 v))
    | .str s => return .next (f.push (.str s))
    | _ => unit.fault (.code (.wrongConstant .literal))
  | .null => return .next (f.push .null)
  | .getStatic slot => do
    let w ← get
    match ((w.types.lineage unit.owner).find? fun t => t.generated.any (·.role == .proxy)) with
    | none => unit.fault .noStaticSlots
    | some t =>
      match slot with
      | .dispatcher =>
        match w.dispatcherOf? t.id with
        | some d => return .next (f.push (.dispatcher d))
        | none => return .next (f.push .null)
      | .operations =>
        match t.generated with
        | some g => return .next (f.push (.array g.table))
        | none => unit.fault .noStaticSlots
  | .getField c => do
    let name ← unit.fieldName c
    let (o, f) ← unit.popObject f
    return .next (f.push (← World.getField o name))
  | .putField c => do
    let name ← unit.fieldName c
    let (v, f) ← unit.pop f
    let (o, f) ← unit.popObject f
    World.setField o name v
    return .next f
  | .newArray => do
    let (length, f) ← unit.popIndex f
    if length < 0 then Action.raise (.indexOutOfBounds length 0)
    else return .next (f.push (← World.newArray (Array.replicate length.toNat .null)))
  | .arrayLoad => do
    let (index, f) ← unit.popIndex f
    let (id, f) ← unit.popArray f
    let items ← World.itemsOf id
    if 0 ≤ index then
      match items[index.toNat]? with
      | some v => return .next (f.push v)
      | none => Action.raise (.indexOutOfBounds index items.size)
    else Action.raise (.indexOutOfBounds index items.size)
  | .arrayStore => do
    let (v, f) ← unit.pop f
    let (index, f) ← unit.popIndex f
    let (id, f) ← unit.popArray f
    let items ← World.itemsOf id
    if 0 ≤ index ∧ index.toNat < items.size then
      World.storeItem id index.toNat v
      return .next f
    else Action.raise (.indexOutOfBounds index items.size)
  | .box kind => do
    let (v, f) ← unit.pop f
    let types := (← get).types
    match v with
    | .prim p =>
      if p.kind = kind then return .next (f.push (.boxed p))
      else Action.raise (types.mismatch kind.keyword v)
    | v => Action.raise (types.mismatch kind.keyword v)
  | .unbox kind => do
    let (v, f) ← unit.pop f
    return .next (f.push (← Action.withTypes fun types => types.unboxAs kind v))
  | .checkCast c => do
    match ← unit.constant c with
    | .type t =>
      let (v, f) ← unit.pop f
      return .next (f.push (← Action.withTypes fun types => types.checkCast t v))
    | _ => unit.fault (.code (.wrongConstant .type))
  | .ifNull target => do
    let (v, f) ← unit.pop f
    return if v = .null then .jump target f else .next f
  | .ifNonNull target => do
    let (v, f) ← unit.pop f
    return if v = .null then .next f else .jump target f
  | .jump target => return .jump target f
  | .invokeSuper c => do
    match ← unit.constant c with
    | .method m =>
      let (args, f) ← unit.popMany f m.params.length
      let (o, f) ← unit.popObject f
      let result ← World.holding f.holders (run (.method m o args))
      return .next (if m.returns.isVoid then f else f.push result)
    | _ => unit.fault (.code (.wrongConstant .method))
  | .invokeSuperCtor c => do
    match ← unit.constant c with
    | .ctor k =>
      let (args, f) ← unit.popMany f k.params.length
      let (o, f) ← unit.popObject f
      let _ ← World.holding f.holders (run (.constructor k o args))
      return .next f
    | _ => unit.fault (.code (.wrongConstant .constructor))
  | .invokeDispatch => do
    let (id, f) ← unit.popArray f
    let args ← World.itemsOf id
    let (operation, f) ← unit.pop f
    match operation with
    | .operation n =>
      let (o, f) ← unit.popObject f
      let (dispatcher, f) ← unit.pop f
      match dispatcher with
      | .dispatcher d =>
        let result ← World.holding f.holders (run (.dispatch d o n args.toList))
        return .next (f.push result)
      | v => unit.fault (.expectedDispatcher ((← get).types.typeName v))
    | v => unit.fault (.expectedOperation ((← get).types.typeName v))
  | .newThrowable c => do
    match ← unit.constant c with
    | .throwable e => return .next (f.push (← World.newThrowable e))
    | _ => unit.fault (.code (.wrongConstant .throwable))
  | .throw => do
    let (v, _) ← unit.pop f
    match v with
    | .throwable _ e => Action.raise (.ofException e)
    | .null => Action.raise (.nullPointer (unit.name ++ ": throw null"))
    | v => unit.fault (.notThrowable ((← get).types.typeName v))
  | .ret => do
    let (v, _) ← unit.pop f
    return .ret v
  | .retVoid => return .ret .void
  | .dup =>
    match f.stack with
    | v :: _ => return .next (f.push v)
    | [] => unit.fault (.code .stackUnderflow)
  | .pop => do
    let (_, f) ← unit.pop f
    return .next f

end CompiledBody

namespace Image

/-- The instruction at a position and the position after it. In bytes a position is an offset. -/
def fetch? (image : Image) (pc : Nat) : Option (Instr × Nat) :=
  match image with
  | assembled bytes => ByteCode.decode bytes pc
  | woven instrs => instrs[pc]?.map fun i => (i, pc + 1)

/-- The fault of a position without instruction. -/
def fetchFault (image : Image) (pc : Nat) : FrameFault :=
  match image with
  | assembled _ => .undecodable pc
  | woven _ => .ranOffEnd

end Image

namespace CompiledBody

/-- A body between two instructions, or at its end. -/
inductive State where
  | at (pc : Nat) (f : Frame)
  | returned (v : Value)
deriving DecidableEq

/-- Fetches and executes one instruction. -/
def advance (unit : CompiledBody) (run : Runner) (pc : Nat) (f : Frame) : Action State := do
  match unit.image.fetch? pc with
  | none => unit.fault (unit.image.fetchFault pc)
  | some (i, next) =>
    match ← unit.step run f i with
    | .next f => return .at next f
    | .jump target f => return .at target.toNat f
    | .ret v => return .returned v

/-- Executes instructions until the body returns, at most a number of them. -/
def loop (unit : CompiledBody) (run : Runner) : Nat → Nat → Frame → Action Value
  | 0, _, _ => throw .exhausted
  | steps + 1, pc, f => do
    match ← unit.advance run pc f with
    | .at next f => unit.loop run steps next f
    | .returned v => return v

/-- Runs a body from its first instruction. The type that defines it must be alive, and is held
while the body runs. -/
def run (unit : CompiledBody) (runner : Runner) (steps : Nat) (this : ObjectRef)
    (args : List Value) : Action Value := do
  if (← get).isDefined this unit.owner then
    World.holding [.type unit.owner] (unit.loop runner steps 0 (.start unit.locals this args))
  else unit.fault .ownerDropped

end CompiledBody

end Interpose
