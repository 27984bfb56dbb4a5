import Interpose.Run.World
import Interpose.Code.Verify
import Interpose.Code.ByteCode

/-!
# Class definitions

A class definition is checked, its code is verified if that is asked for, a back-end makes a body
of each piece of code, and the class is added to the types. A definition that fails leaves the
world as it was.
-/

namespace Interpose

/-- A method to be defined. -/
structure MethodDef where
  name : String
  params : List ValueType
  returns : ValueType
  modifiers : Modifiers
  code : Code

/-- The slot of a method to be defined. -/
def MethodDef.slot (m : MethodDef) : Slot := ⟨m.name, m.returns, m.params⟩

/-- A constructor to be defined. -/
structure CtorDef where
  params : List ValueType
  modifiers : Modifiers
  code : Code

/-- What a class to be defined is generated from. -/
structure GenerationDef where
  role : Role
  base : TypeId
  operations : List Method
  requested : List TypeId

/-- A class to be defined. -/
structure ClassDef where
  name : String
  modifiers : Modifiers
  superclass : TypeId
  interfaces : List TypeId
  fields : List Field
  ctors : List CtorDef
  methods : List MethodDef
  generated : Option GenerationDef

/-- How classes are defined: by which back-end, and whether code is verified. -/
structure Emitter where
  backend : Backend
  verify : Bool
deriving DecidableEq

namespace ClassDef

/-- The first method whose slot an earlier one has. -/
def duplicate? : List MethodDef → List Slot → Option MethodDef
  | [], _ => none
  | m :: rest, seen => if seen.contains m.slot then some m else duplicate? rest (m.slot :: seen)

/-- Why a class cannot be extended. -/
def superclassFlaw? (t : HostType) : Option SuperclassFlaw :=
  if t.isInterface then some .isInterface
  else if t.isFinal then some .isFinal
  else if !t.modifiers.isPublic then some .isNotPublic
  else none

/-- Checks what every back-end asks of a definition: a public superclass that is open to extension,
interfaces that are interfaces, and one method for each slot. -/
def validate (types : TypeTable) (d : ClassDef) : Except EmitError Unit :=
  match (types.lookup? d.superclass).bind superclassFlaw? with
  | some flaw => .error (.invalidSuperclass (types.nameOf d.superclass) flaw)
  | none =>
    match (d.interfaces.filterMap types.lookup?).find? (!·.isInterface) with
    | some t => .error (.notAnInterface t.name)
    | none =>
      match duplicate? d.methods [] with
      | some m => .error (.duplicateMethod d.name m.name)
      | none => .ok ()

/-- The code of a definition: that of the constructors, then that of the methods. -/
def codes (d : ClassDef) : List Code := d.ctors.map (·.code) ++ d.methods.map (·.code)

/-- Verifies a list of code. -/
def verifyAll : List Code → Except EmitError Unit
  | [] => .ok ()
  | c :: rest =>
    match c.verify with
    | .error e => .error e
    | .ok _ => verifyAll rest

end ClassDef

namespace Emitter

/-- What a back-end runs code from. -/
def image (e : Emitter) (c : Code) : Except EmitError Image :=
  match e.backend with
  | .weave => .ok (.woven c.instrs)
  | .assembly => (ByteCode.assemble e.verify c).map .assembled

/-- The body that a back-end makes of code for a type. -/
def body (e : Emitter) (owner : TypeId) (c : Code) : Except EmitError CompiledBody :=
  (e.image c).map fun image => ⟨c.name, owner, c.locals, c.constants, image⟩

/-- The constructor that a definition stands for. -/
def ctor (e : Emitter) (owner : TypeId) (name : String) (c : CtorDef) :
    Except EmitError Constructor :=
  (e.body owner c.code).map fun unit => ⟨c.params, c.modifiers, name, .compiled unit⟩

/-- The operation that a definition stands for. -/
def method (e : Emitter) (owner : TypeId) (name : String) (m : MethodDef) :
    Except EmitError Method :=
  (e.body owner m.code).map fun unit =>
    ⟨m.name, m.params, m.returns, m.modifiers, name, owner, .compiled unit⟩

/-- The record of a generated type, with a new array of operation numbers. -/
def record (w : World) : Option GenerationDef → Option Generation × World
  | none => (none, w)
  | some g =>
    let numbers := (Array.range g.operations.length).map Value.operation
    (some ⟨g.role, g.base, g.operations, g.requested, ⟨w.arrays.size⟩⟩,
      { w with arrays := w.arrays.push numbers })

/-- Defines a class under a loader. -/
def define (e : Emitter) (w : World) (d : ClassDef) (loader : Loader) :
    Except EmitError (TypeId × World) := do
  d.validate w.types
  if e.verify then ClassDef.verifyAll d.codes
  let id := w.types.fresh
  let ctors ← d.ctors.mapM (e.ctor id d.name)
  let methods ← d.methods.mapM (e.method id d.name)
  let (generated, w) := record w d.generated
  let t : HostType :=
    ⟨id, d.name, .cls, d.modifiers, some d.superclass, d.interfaces, methods, ctors, d.fields, loader,
      generated⟩
  return (id, { w with types := t :: w.types })

end Emitter

end Interpose
