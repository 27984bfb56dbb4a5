import Interpose.Generate.Layers
import Interpose.Platform.Fault
import Interpose.Platform.Registry

/-!
# Generated subtypes

Generating a subtype pairs the properties, emits the bridge, harvests the operations of the bridge
and emits the proxy, both in a new loader. The dispatcher of a subtype is set once.
-/

namespace Interpose

namespace World

/-- Adds a loader derived from another one. -/
def addLoader (w : World) (name : String) (parent : Option Loader) : Loader × World :=
  (⟨w.issued, name, parent⟩, { w with issued := w.issued + 1 })

/-- Sets the dispatcher of a generated type that has none. -/
def install (w : World) (subtype : TypeId) (d : DispatcherId) : Except ConfigError World :=
  match w.dispatcherOf? subtype with
  | some _ => .error (.dispatcherAlreadySet (w.types.nameOf subtype))
  | none => .ok { w with installed := (subtype, d) :: w.installed }

/-- Emits both layers of a subtype in a new loader of a name. -/
def emitLayers (e : Emitter) (loaderName : String) (base : HostType) (interfaces : List TypeId)
    (propertyInterfaces : List TypeId) (parent : Loader) (w : World) :
    Except GenerationCause TypeId × World :=
  match w.types.harvestProperties propertyInterfaces with
  | .error fault => (.error (.property fault), w)
  | .ok pairs =>
    let abstracts := w.types.harvestAbstract base.id propertyInterfaces
    let (loader, w) := w.addLoader loaderName (some parent)
    match e.bridge w base abstracts pairs propertyInterfaces loader with
    | .error fault => (.error (.emit fault), w)
    | .ok (bridge, w) =>
      let operations := w.types.harvest bridge (interfaces ++ [TypeId.capability])
      match w.types.lookup? bridge with
      | none => (.ok bridge, w)
      | some bridgeType =>
        match e.proxy w bridgeType base operations interfaces loader with
        | .error fault => (.error (.emit fault), w)
        | .ok (proxy, w) => (.ok proxy, w)

/-- What the loader of a generated subtype is named after its base. -/
def subtypeLoaderName (base : HostType) : String := "graft:" ++ Naming.simple base.name

/-- Generates a subtype and sets its dispatcher, if it is given one. -/
def generate (e : Emitter) (base : TypeId) (interfaces properties : List TypeId) (parent : Loader)
    (dispatcher : Option DispatcherId) (w : World) : Except PlatformError TypeId × World :=
  match w.types.lookup? base with
  | none => (.error (.config (.notGenerated "")), w)
  | some t =>
    match w.emitLayers e (subtypeLoaderName t) t (dedupIds interfaces) properties parent with
    | (.error cause, w) => (.error (.generation t.name cause), w)
    | (.ok proxy, w) =>
      match dispatcher with
      | none => (.ok proxy, w)
      | some d =>
        match w.install proxy d with
        | .ok w => (.ok proxy, w)
        | .error e => (.error (.config e), w)

/-- The first of some types that is no interface. -/
def classAmong? (w : World) (ids : List TypeId) : Option HostType :=
  (ids.filterMap w.types.lookup?).find? (!·.isInterface)

/-- The emitter of a platform. -/
def emitter (w : World) (p : PlatformId) : Emitter :=
  let options := (w.platform p).options
  ⟨options.backend.resolve, options.verifyCode⟩

/-- Answers a request from a registry of a platform, which is put back afterwards. -/
def fromRegistry (p : PlatformId) (registry : Platform → Registry)
    (replace : Platform → Registry → Platform) (key : CacheKey)
    (create : World → Except PlatformError TypeId × World) (w : World) :
    Except PlatformError TypeId × World :=
  let (result, r, w) := (registry (w.platform p)).getOrCreate w.types.satisfies key create w
  (result, { w with platforms := w.platforms.modify p.index fun s => replace s r })

/-- The subtype of a base with interfaces and properties under a loader, whose calls the platform
dispatches. -/
def createExtensionType (p : PlatformId) (base : TypeId) (interfaces properties : List TypeId)
    (parent : Loader) (w : World) : Except PlatformError TypeId × World :=
  match w.classAmong? interfaces, w.classAmong? properties with
  | some t, _ => (.error (.config (.notAnInterface t.name)), w)
  | none, some t => (.error (.config (.notAnInterface t.name)), w)
  | none, none =>
    w.fromRegistry p (·.registry) (fun s r => { s with registry := r })
      (CacheKey.of base interfaces properties parent)
      (World.generate (w.emitter p) base interfaces properties parent
        (some (w.platform p).dispatcher))

end World

end Interpose
