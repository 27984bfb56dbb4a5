import Interpose.Generate.Definition
import Interpose.Generate.Root
import Interpose.Code.Builder
import Interpose.Harvest.Interception
import Interpose.Harvest.Property

/-!
# The two layers of a generated subtype

The bridge extends the base, gives each abstract operation a body that raises, and stores
properties in fields. The proxy extends the bridge; each operation that it takes over hands calls to
the dispatcher of the proxy, or goes up to the bridge while there is none, and has an accessor that
always goes up.
-/

namespace Interpose

namespace Layer

/-- The name of a generated body. -/
def bodyName (owner name : String) (params : List ValueType) (returns : ValueType) : String :=
  owner ++ "." ++ name ++ signatureDescriptor params returns

/-- The exception that nothing implements an operation. -/
def unsupported (op : Method) : HostException := ⟨.unsupportedOperation, op.text⟩

/-- The modifiers of a body for an operation: its own, but never abstract. -/
def overrideModifiers (op : Method) : Modifiers := op.modifiers.without .abstract

/-- The modifiers of what a layer adds for itself. -/
def ownModifiers : Modifiers := .public ||| .final

/-- A constructor that hands its arguments to one of the superclass. -/
def forwardingCtor (owner : String) (c : Constructor) : Except EmitError CtorDef := do
  let n := c.params.length
  let b := CodeBuilder.start (bodyName owner "<init>" c.params .void) n
  let code ← (((b.loadAll n).invokeSuperCtor c).emit .retVoid).finish
  return ⟨c.params, c.modifiers, code⟩

/-- A constructor for each of the superclass that subclasses can reach. -/
def forwardingCtors (owner : String) (superclass : HostType) : Except EmitError (List CtorDef) :=
  (superclass.constructors.filter fun c => !c.modifiers.isFinal && !c.modifiers.isPrivate).mapM
    (forwardingCtor owner)

/-- The body that an operation has above a layer. -/
def superTarget? (types : TypeTable) (superclass : TypeId) (op : Method) : Option Method :=
  (types.findVirtual? superclass op.slot).filter fun m => !m.isAbstract

/-- Goes up: calls the body above on the receiver and the parameters, or raises if there is
none. -/
def goUp (b : CodeBuilder) (op : Method) : Option Method → CodeBuilder
  | some target =>
    ((b.loadAll op.params.length).invokeSuper target).emit
      (if op.returns.isVoid then .retVoid else .ret)
  | none => (b.newThrowable (unsupported op)).emit .throw

/-- Stores a parameter, boxed if it is primitive, in the argument array on the stack. -/
def packArgument (b : CodeBuilder) (i : Nat) (t : ValueType) : CodeBuilder :=
  let b := ((b.emit .dup).pushInt (Int32.ofNat i)).load (CodeBuilder.param i)
  let b := match t.kind? with
    | some kind => b.emit (.box kind)
    | none => b
  b.emit .arrayStore

/-- Stores the parameters from a position on. -/
def packArguments (b : CodeBuilder) : Nat → List ValueType → CodeBuilder
  | _, [] => b
  | i, t :: rest => packArguments (packArgument b i t) (i + 1) rest

/-- The body that hands calls of an operation to the dispatcher, or goes up without one. -/
def thunkCode (owner : String) (index : Nat) (op : Method) (target : Option Method) :
    Except EmitError Code :=
  let n := op.params.length
  let b := CodeBuilder.start (bodyName owner op.name op.params op.returns) n
  let (up, b) := b.defineLabel
  let b := ((b.emit (.getStatic .dispatcher)).emit .dup).emitBranch .ifNull up
  let b := ((b.load 0).emit (.getStatic .operations)).pushInt (Int32.ofNat index)
  let b := ((b.emit .arrayLoad).pushInt (Int32.ofNat n)).emit .newArray
  let b := (packArguments b 0 op.params).emit .invokeDispatch
  let b := if op.returns.isVoid then (b.emit .pop).emit .retVoid else b.retAs op.returns
  (goUp ((b.markLabel up).emit .pop) op target).finish

/-- The definition of the dispatching body of an operation. -/
def thunk (owner : String) (index : Nat) (op : Method) (target : Option Method) :
    Except EmitError MethodDef := do
  return ⟨op.name, op.params, op.returns, overrideModifiers op,
    ← thunkCode owner index op target⟩

/-- The definition of the accessor to what an operation overrides. -/
def accessor (owner : String) (op : Method) (target : Option Method) :
    Except EmitError MethodDef := do
  let name := Naming.accessor op.name op.returns
  let b := CodeBuilder.start (bodyName owner name op.params op.returns) op.params.length
  return ⟨name, op.params, op.returns, ownModifiers, ← (goUp b op target).finish⟩

/-- The definition of a body that raises for an abstract operation. -/
def stub (owner : String) (op : Method) : Except EmitError MethodDef := do
  let b := CodeBuilder.start (bodyName owner op.name op.params op.returns) op.params.length
  return ⟨op.name, op.params, op.returns, overrideModifiers op, ← (goUp b op none).finish⟩

/-- The definition of a getter that reads a field. -/
def propertyGetter (owner : String) (p : PropertyPair) : Except EmitError MethodDef := do
  let m := p.getter
  let b := CodeBuilder.start (bodyName owner m.name m.params m.returns) 0
  let code ← (((b.load 0).getField p.fieldName).emit .ret).finish
  return ⟨m.name, m.params, m.returns, ownModifiers, code⟩

/-- The definition of a setter that writes a field. -/
def propertySetter (owner : String) (p : PropertyPair) : Except EmitError MethodDef := do
  let m := p.setter
  let b := CodeBuilder.start (bodyName owner m.name m.params m.returns) 1
  let code ← ((((b.load 0).load 1).putField p.fieldName).emit .retVoid).finish
  return ⟨m.name, m.params, m.returns, ownModifiers, code⟩

/-- The accessors of properties. -/
def propertyMethods (owner : String) : List PropertyPair → Except EmitError (List MethodDef)
  | [] => .ok []
  | p :: rest => do
    let getter ← propertyGetter owner p
    let setter ← propertySetter owner p
    return getter :: setter :: (← propertyMethods owner rest)

/-- Whether an operation is an accessor of one of some properties. -/
def isClaimed (properties : List PropertyPair) (op : Method) : Bool :=
  properties.any fun p => p.getter.slot == op.slot || p.setter.slot == op.slot

/-- The definition of the bridge of a base. An interface is extended through the root class. -/
def bridgeDef (types : TypeTable) (base : HostType) (abstracts : List Method)
    (properties : List PropertyPair) (propertyInterfaces : List TypeId) :
    Except EmitError ClassDef := do
  let name := Naming.layer base.name .bridge
  let accessors ← propertyMethods name properties
  let stubs ← (abstracts.filter fun op => !isClaimed properties op).mapM (stub name)
  let superclass := if base.isInterface then TypeId.root else base.id
  let ctors ← match types.lookup? superclass with
    | some t => forwardingCtors name t
    | none => .ok []
  return {
    name := name
    modifiers := .public
    superclass := superclass
    interfaces := if base.isInterface then base.id :: propertyInterfaces else propertyInterfaces
    fields := properties.map fun p => ⟨p.fieldName, p.type, .private⟩
    ctors := ctors
    methods := accessors ++ stubs
    generated := some ⟨.bridge, base.id, [], []⟩ }

/-- The bodies that a proxy has for the operations from a position on. -/
def proxyMethods (types : TypeTable) (owner : String) (bridge : TypeId) :
    Nat → List Method → Except EmitError (List MethodDef)
  | _, [] => .ok []
  | i, op :: rest => do
    let target := superTarget? types bridge op
    let dispatching ← thunk owner i op target
    let upward ← accessor owner op target
    return dispatching :: upward :: (← proxyMethods types owner bridge (i + 1) rest)

/-- The definition of the proxy on a bridge. -/
def proxyDef (types : TypeTable) (bridge base : HostType) (operations : List Method)
    (requested : List TypeId) : Except EmitError ClassDef := do
  let name := Naming.layer base.name .proxy
  let methods ← proxyMethods types name bridge.id 0 operations
  let ctors ← forwardingCtors name bridge
  return {
    name := name
    modifiers := .public
    superclass := bridge.id
    interfaces := requested ++ [TypeId.capability]
    fields := []
    ctors := ctors
    methods := methods
    generated := some ⟨.proxy, base.id, operations, requested⟩ }

end Layer

namespace Emitter

/-- Adds the bridge of a base. -/
def bridge (e : Emitter) (w : World) (base : HostType) (abstracts : List Method)
    (properties : List PropertyPair) (propertyInterfaces : List TypeId) (loader : Loader) :
    Except EmitError (TypeId × World) := do
  e.define w (← Layer.bridgeDef w.types base abstracts properties propertyInterfaces) loader

/-- Adds the proxy on a bridge. -/
def proxy (e : Emitter) (w : World) (bridge base : HostType) (operations : List Method)
    (requested : List TypeId) (loader : Loader) : Except EmitError (TypeId × World) := do
  e.define w (← Layer.proxyDef w.types bridge base operations requested) loader

end Emitter

end Interpose
