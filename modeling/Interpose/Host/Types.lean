import Interpose.Host.Program
import Interpose.Signature.Modifiers
import Interpose.Signature.Naming

/-!
# Operations, constructors, types and loaders

The declarations of the host: operations with native or generated bodies, constructors, fields,
and the types that hold them. A type names its supertypes by identity; a generated body holds the
operations and constructors that it calls, so the declarations of bodies are mutually recursive.
-/

namespace Interpose

/-- The identity under which types are defined, with the loader it was derived from. -/
structure Loader where
  id : Nat
  name : String
  parent : Option Loader

namespace Loader

/-- A loader and its parents up to the root. -/
def lineage : Loader → List Loader
  | ⟨id, name, none⟩ => [⟨id, name, none⟩]
  | ⟨id, name, some parent⟩ => ⟨id, name, some parent⟩ :: parent.lineage

/-- Whether a loader is another one or derived from it. -/
def descendsFrom (a b : Loader) : Bool := a.lineage.any (·.id == b.id)

end Loader

/-- One of the two values that a generated type keeps for its bodies. -/
inductive StaticSlot where
  | dispatcher
  | operations
deriving DecidableEq, Repr

/-- An instruction of a generated body. Constants are named by their position, branch targets by
the position of an instruction. -/
inductive Instr where
  | load (n : UInt16)
  | store (n : UInt16)
  | const (c : UInt16)
  | null
  | getStatic (slot : StaticSlot)
  | getField (c : UInt16)
  | putField (c : UInt16)
  | newArray
  | arrayLoad
  | arrayStore
  | box (kind : Kind)
  | unbox (kind : Kind)
  | checkCast (c : UInt16)
  | ifNull (target : UInt32)
  | ifNonNull (target : UInt32)
  | jump (target : UInt32)
  | invokeSuper (c : UInt16)
  | invokeSuperCtor (c : UInt16)
  | invokeDispatch
  | newThrowable (c : UInt16)
  | throw
  | ret
  | retVoid
  | dup
  | pop
deriving DecidableEq, Inhabited

/-- The back-ends that turn code into bodies. -/
inductive Backend where
  /-- Bodies are byte strings, and branches name byte offsets. -/
  | assembly
  /-- Bodies are instruction lists, and branches name positions. -/
  | weave
deriving DecidableEq, Repr, Inhabited

/-- The name of a back-end. -/
def Backend.name : Backend → String
  | assembly => "assembly"
  | weave => "weave"

/-- What a generated body is run from. -/
inductive Image where
  | assembled (bytes : Array UInt8)
  | woven (instrs : Array Instr)
deriving DecidableEq

/-- The back-end that makes images of a form. -/
def Image.backend : Image → Backend
  | assembled _ => .assembly
  | woven _ => .weave

/-- The behaviour of a native body, given the receiver and the arguments. -/
abbrev NativeBody := ObjectRef → List Value → Program

mutual

/-- An operation that a type declares. -/
structure Method where
  name : String
  params : List ValueType
  returns : ValueType
  modifiers : Modifiers
  /-- The name of the declaring type. -/
  declaring : String
  declaringId : TypeId
  body : MethodBody

/-- The body of an operation. -/
inductive MethodBody where
  | abstract
  | native (run : NativeBody)
  | compiled (unit : CompiledBody)

/-- A constructor that a class declares. -/
structure Constructor where
  params : List ValueType
  modifiers : Modifiers
  /-- The name of the declaring type. -/
  declaring : String
  body : ConstructorBody

/-- The body of a constructor. -/
inductive ConstructorBody where
  | native (run : NativeBody)
  /-- Runs the constructor of the superclass that takes no arguments, if there is one. -/
  | inherited (parent : Option Constructor)
  | compiled (unit : CompiledBody)

/-- A generated body together with what it needs to run. -/
structure CompiledBody where
  /-- The name that its faults are reported under. -/
  name : String
  /-- The type whose static slots it reads. -/
  owner : TypeId
  /-- How many locals a frame has at least. -/
  locals : UInt16
  constants : Array Constant
  image : Image

/-- A constant that instructions refer to. -/
inductive Constant where
  | int (value : Int32)
  | str (text : String)
  | field (name : String)
  | type (t : ValueType)
  | method (m : Method)
  | ctor (c : Constructor)
  | throwable (e : HostException)

end

/-- Instructions with their constants, before a back-end makes a body of them. -/
structure Code where
  /-- The name that faults are reported under. -/
  name : String
  /-- How many locals hold the receiver and the arguments. -/
  arity : UInt16
  locals : UInt16
  instrs : Array Instr
  constants : Array Constant

namespace Method

/-- The slot that an operation occupies. -/
def slot (m : Method) : Slot := ⟨m.name, m.returns, m.params⟩

/-- Whether an operation occupies a slot. -/
def occupies (m : Method) (s : Slot) : Bool := m.slot == s

/-- The signature of an operation in compact form. -/
def descriptor (m : Method) : String := signatureDescriptor m.params m.returns

/-- The declaring type, the name and the signature of an operation. -/
def text (m : Method) : String := m.declaring ++ "." ++ m.name ++ m.descriptor

/-- Whether an operation has no body, or is declared to have none. -/
def isAbstract (m : Method) : Bool :=
  m.modifiers.isAbstract || match m.body with
    | .abstract => true
    | _ => false

/-- Whether calls of the slot can reach an operation. -/
def isVirtual (m : Method) : Bool := !m.modifiers.isStatic && !m.modifiers.isPrivate

end Method

namespace Constructor

/-- The declaring type and the signature of a constructor. -/
def text (c : Constructor) : String :=
  c.declaring ++ ".<init>" ++ signatureDescriptor c.params .void

end Constructor

/-- A field that a type declares. -/
structure Field where
  name : String
  type : ValueType
  modifiers : Modifiers
deriving DecidableEq, Inhabited

/-- Class or interface. -/
inductive TypeKind where
  | cls
  | iface
deriving DecidableEq, Repr, Inhabited

/-- What a generated type was generated from. -/
structure Generation where
  role : Role
  base : TypeId
  /-- The operations that the layer intercepts; positions are operation numbers. -/
  operations : List Method
  /-- The interfaces asked for, without the capability. -/
  requested : List TypeId
  /-- The array of operation numbers that the bodies read. -/
  table : ArrayId

/-- A class or interface. -/
structure HostType where
  id : TypeId
  name : String
  kind : TypeKind
  modifiers : Modifiers
  superclass : Option TypeId
  interfaces : List TypeId
  methods : List Method
  constructors : List Constructor
  fields : List Field
  loader : Loader
  generated : Option Generation

namespace HostType

/-- Whether a type is an interface. -/
def isInterface (t : HostType) : Bool := t.kind == .iface

/-- Whether a type has no objects of its own. -/
def isAbstract (t : HostType) : Bool := t.isInterface || t.modifiers.isAbstract

/-- Whether a type is closed to extension. -/
def isFinal (t : HostType) : Bool := t.modifiers.isFinal

/-- The kind and the name of a type. -/
def text (t : HostType) : String :=
  (if t.isInterface then "interface " else "class ") ++ t.name

/-- The constructor declared with exactly these parameter types. -/
def findConstructor? (t : HostType) (params : List ValueType) : Option Constructor :=
  t.constructors.find? (·.params == params)

end HostType

end Interpose
