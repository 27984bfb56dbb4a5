import Interpose.Session.Keeping
import Interpose.Session.Refusals
import Interpose.Session.Settings
import Interpose.Platform.Construction

/-!
# Commands on subtypes and platforms

Subtypes are generated on request and found again in registries; dispatchers are installed on them,
and calls are routed by way of their operation tables.
-/

namespace Interpose.Command

/-! ## Subtypes and their dispatchers -/

/-- Generates a subtype on a platform, or finds the one there is. -/
def createType (t : Tree) : Command Tree := do
  let base ← typeOf t "base"
  let interfaces ← typesOf t "interfaces"
  let properties ← typesOf t "properties"
  let p ← platformOf t
  let loader ← loaderOf t "loader"
  keepSubtype t (← runPlatform (PlatformAction.ofWorld
    (World.createExtensionType p base interfaces properties loader)))

/-- All about a subtype. -/
def subtypeInfo (t : Tree) : Command Tree := do
  let subtype ← hostType (← subtypeOf t "subtype")
  let table ← types
  let dispatcher ← match (← world).dispatcherOf? subtype.id with
    | none => pure Tree.null
    | some d => dispatcherName d
  return .node [("name", .str subtype.name),
    ("base", .opt (subtype.generated.map fun g => table.nameOf g.base)),
    ("bridge", .opt (subtype.superclass.map table.nameOf)),
    ("operations", .strs ((operationsOf subtype).map (·.listing))),
    ("requested", ← namesOf ((subtype.generated.map (·.requested)).getD [])),
    ("loaders", .strs (subtype.loader.lineage.map (·.name))), ("dispatcher", dispatcher),
    ("debug", .str (Describe.subtype subtype))]

/-- Whether two names stand for one subtype. -/
def sameSubtype (t : Tree) : Command Tree := do
  let a ← subtypeOf t "a"
  return .bool (a == (← subtypeOf t "b"))

/-- A type taken for a subtype, if it is a proxy. -/
def wrapSubtype (t : Tree) : Command Tree := do
  let id ← typeOf t "type"
  if (← types).isProxy id then keepSubtype t id else return .null

/-- Whether a type was generated. -/
def isGenerated (t : Tree) : Command Tree := do
  return .bool (← hostType (← typeOf t "type")).generated.isSome

/-- The dispatcher of a subtype. -/
def getDispatcher (t : Tree) : Command Tree := do
  let id ← subtypeOf t "subtype"
  match (← world).dispatcherOf? id with
  | none => return .node [("present", .bool false), ("name", .null)]
  | some d => return .node [("present", .bool true), ("name", ← dispatcherName d)]

/-- The dispatcher that a field names. -/
def dispatcherOf (t : Tree) : Command DispatcherId := do
  lookup "dispatcher" (·.dispatchers) (← strOf t "dispatcher")

/-- Installs a dispatcher on a subtype. -/
def setDispatcher (t : Tree) : Command Tree := do
  let id ← subtypeOf t "subtype"
  let d ← dispatcherOf t
  setWorld (← ofExcept .config ((← world).install id d))
  return done

/-- Keeps the dispatcher of a subtype under a name. -/
def saveDispatcher (t : Tree) : Command Tree := do
  let id ← subtypeOf t "subtype"
  let key ← strOf t "as"
  match (← world).dispatcherOf? id with
  | none => throw (.config (.missingDispatcher ((← types).nameOf id)))
  | some d =>
    keep fun n => { n with dispatchers := n.dispatchers.put key d }
    return done

/-! ## Calls -/

/-- Runs a dispatcher. -/
def dispatch (t : Tree) : Command Tree := do
  let d ← dispatcherOf t
  let operation ← natOf t "operation"
  let o ← objectOf t "object"
  let args ← argsOf t
  keepValue t (← run (runner (.dispatch d o operation args)))

/-- Routes a call to a script object. -/
def route (t : Tree) : Command Tree := do
  let id ← instanceOf t
  let m ← methodOf t
  let p ← platformOf t
  let args ← argsOf t
  keepValue t (← run (World.holding [.instance id] (runner.route p id m args)))

/-- Resolves what an operation of a type overrides. -/
def resolveAccessor (t : Tree) : Command Tree := do
  let real ← typeOf t "real"
  let m ← methodOf t
  let p ← platformOf t
  let a ← run (Runner.resolve p real m)
  return .node [("operation", .str a.operation.listing), ("accessor", .str a.accessor.listing)]

/-! ## Requests -/

/-- The request that the fields of a command make, and the platform that it is made to. -/
def requestOf (t : Tree) : Command (ExtensionRequest × PlatformId) := do
  let base ← typeOf t "base"
  let interfaces ← typesOf t "interfaces"
  let properties ← typesOf t "properties"
  let dispatcher ← match t.given? "dispatcher" with
    | none => pure none
    | some _ => do pure (some (← dispatcherOf t))
  let loader ← loaderOf t "loader"
  let params ← valueTypesOf t "params"
  let args ← argsOf t
  return (⟨base, interfaces, properties, dispatcher, params, args, loader⟩, ← platformOf t)

/-- Answers a request with an object. -/
def request (t : Tree) : Command Tree := do
  let (r, p) ← requestOf t
  keepObject t (← runPlatform (r.build runner p))

/-- Answers a request with a subtype. -/
def requestType (t : Tree) : Command Tree := do
  let (r, p) ← requestOf t
  keepSubtype t (← runPlatform (PlatformAction.ofWorld (r.buildType p)))

/-! ## Registries -/

/-- What a platform has done so far. -/
def stats (t : Tree) : Command Tree := do
  let p := (← world).platform (← platformOf t)
  return .node [("backend", .str p.options.backend.resolve.name),
    ("options", optionsTree p.options), ("types", .nat p.registry.size),
    ("empty", .bool (p.registry.size == 0)), ("generations", .nat p.registry.generations),
    ("originals", .nat p.accessors.entries.length),
    ("originals_empty", .bool p.accessors.entries.isEmpty),
    ("resolutions", .nat p.accessors.resolutions), ("constructing", .bool p.constructing.isSome)]

/-- Whether the registry of a platform holds a type. -/
def registryContains (t : Tree) : Command Tree := do
  let p ← platformOf t
  let id ← typeOf t "type"
  return .bool (((← world).platform p).registry.contains id)

/-- The subtype of a key in the registry of a platform. -/
def registryGet (t : Tree) : Command Tree := do
  let p ← platformOf t
  let k ← key t
  return .opt ((((← world).platform p).registry.get? k).map (← types).nameOf)

/-- Whether two keys are the same. -/
def sameKey (t : Tree) : Command Tree := do
  let a ← key (t.field "a")
  return .bool (a == (← key (t.field "b")))

/-- The name of the loader of layers that are emitted outside of a platform. -/
def layerLoaderName : String := "gen"

/-- Emits both layers of a base as the fields of a tree say. -/
def layersOf (t : Tree) (base : TypeId) : Command TypeId := do
  let interfaces ← typesOf t "interfaces"
  let loader ← loaderOf t "loader"
  let e ← emitterOf t
  let properties ← typesOf t "properties"
  let base ← hostType base
  let (result, w) := (← world).emitLayers e layerLoaderName base interfaces properties loader
  setWorld w
  match result with
  | .ok id => return id
  | .error (.emit e) => throw (.emit e)
  | .error (.property e) => throw (.harvest e)

/-- Emits both layers of a base. -/
def emitLayers (t : Tree) : Command Tree := do
  keepSubtype t (← layersOf t (← typeOf t "base"))

/-- A generator that counts how often it runs and reads its fields when it does; a field may have it
fail with a message. -/
def counting (t : Tree) (base : TypeId) (s : Session × Nat) :
    Except Tree TypeId × (Session × Nat) :=
  match t.strOf? "fail" with
  | some message => (.error (refusalTree "Create" message), s.1, s.2 + 1)
  | none =>
    match (ExceptT.run (layersOf t base)).run s.1 with
    | (.ok id, after) => (.ok id, after, s.2 + 1)
    | (.error refusal, after) => (.error refusal.tree, after, s.2 + 1)

/-- Gets the subtype of a key from the registry of the session, which generates it if it has to. -/
def register (t : Tree) : Command Tree := do
  let k ← key t
  let name ← strOf t "as"
  let base ← typeOf t "base"
  let before ← get
  let (result, r, after, created) := before.world.names.registry.getOrCreate
    before.world.types.satisfies k (counting (t.field "create") base) (before, 0)
  set after
  keep fun n => { n with registry := r }
  let outcome ← match result with
    | .error failure => pure ("failed", failure)
    | .ok id => do
      let known := (← world).names.subtypes.firstWhere (· == id)
      keep fun n => { n with subtypes := n.subtypes.put name id }
      pure ("known_as", Tree.opt known)
  return .node [outcome, ("created", .nat created), ("len", .nat r.size),
    ("generations", .nat r.generations), ("cached", .bool (r.get? k).isSome)]

/-- The commands on subtypes and platforms. -/
def onSubtypes : List (String × (Tree → Command Tree)) :=
  [("create_type", createType), ("subtype_info", subtypeInfo), ("same_subtype", sameSubtype),
    ("wrap_subtype", wrapSubtype), ("is_generated", isGenerated),
    ("get_dispatcher", getDispatcher), ("set_dispatcher", setDispatcher),
    ("save_dispatcher", saveDispatcher), ("dispatch", dispatch), ("route", route),
    ("resolve_original", resolveAccessor), ("request", request), ("request_type", requestType),
    ("stats", stats), ("registry_contains", registryContains), ("registry_get", registryGet),
    ("same_key", sameKey), ("emit_layers", emitLayers), ("reg", register)]

end Interpose.Command
