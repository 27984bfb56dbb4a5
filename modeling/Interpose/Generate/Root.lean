import Interpose.Run.World

/-!
# Declared types and the two given ones

Types that an embedding program declares, and the two that are always there: the root class and the
capability interface. A class that declares no constructor has one that runs that of its superclass.
-/

namespace Interpose

/-- An operation as it is declared; without a body it is public and abstract. -/
structure MethodDecl where
  name : String
  params : List ValueType
  returns : ValueType
  modifiers : Modifiers
  body : Option NativeBody

/-- A constructor as it is declared. -/
structure CtorDecl where
  params : List ValueType
  modifiers : Modifiers
  body : NativeBody

/-- A type as it is declared. -/
structure TypeDecl where
  name : String
  kind : TypeKind
  modifiers : Modifiers
  superclass : Option TypeId
  interfaces : List TypeId
  fields : List Field
  methods : List MethodDecl
  ctors : List CtorDecl
  loader : Loader

/-- The loader that every other one is derived from unless it is a root itself. -/
def Loader.system : Loader := ⟨0, "system", none⟩

namespace TypeDecl

/-- The modifiers of types that are declared without any. -/
def defaultModifiers : TypeKind → Modifiers
  | .cls => .public
  | .iface => .public ||| .abstract

/-- The operation that a declaration stands for. -/
def method (id : TypeId) (name : String) (m : MethodDecl) : Method :=
  match m.body with
  | none => ⟨m.name, m.params, m.returns, .public ||| .abstract, name, id, .abstract⟩
  | some run => ⟨m.name, m.params, m.returns, m.modifiers, name, id, .native run⟩

/-- The constructors of a declared type. -/
def constructors (types : TypeTable) (d : TypeDecl) : List Constructor :=
  if d.kind = .cls ∧ d.ctors.isEmpty then
    let parent := (d.superclass.bind types.lookup?).bind (·.findConstructor? [])
    [⟨[], .public, d.name, .inherited parent⟩]
  else d.ctors.map fun c => ⟨c.params, c.modifiers, d.name, .native c.body⟩

/-- Adds a declared type to a table. -/
def addTo (d : TypeDecl) (types : TypeTable) : TypeId × TypeTable :=
  let id := types.fresh
  let t : HostType :=
    ⟨id, d.name, d.kind, d.modifiers, d.superclass, d.interfaces, d.methods.map (method id d.name),
      d.constructors types, d.fields, d.loader, none⟩
  (id, t :: types)

/-- The root class. -/
def root : TypeDecl where
  name := objectName
  kind := .cls
  modifiers := .public
  superclass := none
  interfaces := []
  fields := []
  methods := []
  ctors := []
  loader := .system

/-- The operation through which an object gives out what it is bound to. -/
def instanceName : String := "instance"

/-- The capability interface. -/
def capability : TypeDecl where
  name := capabilityName
  kind := .iface
  modifiers := .public ||| .abstract
  superclass := none
  interfaces := []
  fields := []
  methods := [⟨instanceName, [], .object, .none, none⟩]
  ctors := []
  loader := .system

end TypeDecl

/-- The slot of the capability's operation. -/
def capabilitySlot : Slot := ⟨TypeDecl.instanceName, .object, []⟩

/-- The types that are always there. -/
def TypeTable.initial : TypeTable := (TypeDecl.capability.addTo (TypeDecl.root.addTo []).2).2

theorem nameOf_root : TypeTable.initial.nameOf .root = objectName := rfl

theorem nameOf_capability : TypeTable.initial.nameOf .capability = capabilityName := rfl

/-- The identity of the platform that is there at first. -/
def PlatformId.first : PlatformId := ⟨0⟩

/-- The name of the platform that is meant where none is named. -/
def PlatformId.mainName : String := "main"

/-- The world at first: the given types and one platform. -/
def World.initial (options : PlatformOptions) : World :=
  let names : Directory := { platforms := [(PlatformId.mainName, .first)] }
  (({ types := .initial, issued := 1, names := names } : World).addPlatform options).2

/-- The platform that is meant where none is named: the last that was given the main name. -/
def World.mainPlatform (w : World) : PlatformId :=
  (w.names.platforms.get? PlatformId.mainName).getD .first

theorem World.mainPlatform_initial (options : PlatformOptions) :
    (World.initial options).mainPlatform = .first := rfl

/-- Adds a declared type. -/
def World.declare (w : World) (d : TypeDecl) : TypeId × World :=
  let (id, types) := d.addTo w.types
  (id, { w with types := types })

end Interpose
