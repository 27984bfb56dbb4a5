import Interpose.Run.Holder
import Interpose.Script.Types

/-!
# The world

All that can change while bodies run: objects, arrays, script objects, the dispatchers of generated
types, the state of each platform, and the names under which an embedding program keeps things.
Identities are positions in the order of creation.
-/

namespace Interpose

/-- Which back-end a platform is asked to use. -/
inductive BackendChoice where
  | assembly
  | weave
  | auto
deriving DecidableEq, Repr, Inhabited

namespace BackendChoice

/-- The word for a choice. -/
def word : BackendChoice → String
  | assembly => "assembly"
  | weave => "weave"
  | auto => "auto"

/-- The back-end that a choice stands for. -/
def resolve : BackendChoice → Backend
  | assembly => .assembly
  | weave => .weave
  | auto => .weave

end BackendChoice

/-- The options of a platform. -/
structure PlatformOptions where
  backend : BackendChoice := .auto
  /-- Whether code is verified before it is run. -/
  verifyCode : Bool := true
  /-- Whether routed calls are reported; it changes no result. -/
  traceDispatch : Bool := false
deriving DecidableEq, Repr, Inhabited

/-- The identity of a platform. -/
structure PlatformId where
  index : Nat
deriving DecidableEq, Repr, Inhabited

/-- A receiver of intercepted calls. -/
inductive Dispatcher where
  /-- Sends calls to the script object of the receiver, or to what the operation overrides. -/
  | routing (platform : PlatformId)
  /-- Runs a body with the receiver, the operation number and the boxed arguments. -/
  | custom (body : ObjectRef → Nat → List Value → Program)

/-- What a generated subtype is asked for: the types by identity, without order or repetition. -/
structure CacheKey where
  base : TypeId
  interfaces : List TypeId
  properties : List TypeId
  loader : Nat
deriving DecidableEq

/-- The subtypes generated so far. A key whose generation failed has an entry without subtype. -/
structure Registry where
  entries : List (CacheKey × Option TypeId) := []
  /-- How many generations succeeded. -/
  generations : Nat := 0

/-- How an operation is reached in what it overrides. -/
structure ResolvedAccessor where
  operation : Method
  accessor : Method

/-- The accessors found so far, by the class they were looked up on and the slot. -/
structure AccessorCache where
  entries : List ((TypeId × Slot) × ResolvedAccessor) := []
  /-- How many look-ups were needed. -/
  resolutions : Nat := 0

/-- The state of a platform. -/
structure Platform where
  options : PlatformOptions
  dispatcher : DispatcherId
  registry : Registry := {}
  /-- The subtypes generated for dispatchers other than the platform's own. -/
  unmanaged : Registry := {}
  accessors : AccessorCache := {}
  /-- The object whose base constructor is running. -/
  constructing : Option ObjectRef := none

/-- What an object is bound to, which is set at most once. -/
inductive Binding where
  | unbound
  | bound (id : InstanceId)
  /-- The script object that it was bound to is gone. -/
  | lapsed
deriving DecidableEq

namespace Binding

/-- Whether a binding was ever set. -/
def isSet : Binding → Bool
  | unbound => false
  | bound _ | lapsed => true

/-- The script object that a binding is to. -/
def target? : Binding → Option InstanceId
  | bound id => some id
  | unbound | lapsed => none

end Binding

/-- The state of an object. -/
structure ObjectState where
  cls : TypeId
  fields : List (String × Value)
  /-- The script object that it is the bridge of. -/
  binding : Binding := .unbound

/-- A property of a script object. -/
inductive Property where
  | held (v : Value)
  /-- The property is the field of the same name of the bridge. -/
  | live
deriving DecidableEq

/-- A script object. -/
structure Instance where
  script : ScriptType
  bridge : ObjectRef
  platform : PlatformId
  properties : List (String × Property)

/-- Things kept under names. -/
abbrev Names (α : Type) := List (String × α)

namespace Names

variable {α : Type}

/-- What is kept under a name. -/
def get? (names : Names α) (name : String) : Option α :=
  (names.find? (·.1 == name)).map (·.2)

/-- The names without one of them. -/
def erase (names : Names α) (name : String) : Names α := names.filter (·.1 != name)

/-- Keeps something under a name, in place of what was there. -/
def put (names : Names α) (name : String) (a : α) : Names α := (name, a) :: names.erase name

/-- The alphabetically first name of the things with a property. -/
def firstWhere (names : Names α) (p : α → Bool) : Option String :=
  (names.filter fun n => p n.2).foldl
    (fun first n => match first with
      | none => some n.1
      | some other => if n.1 < other then some n.1 else some other) none

@[simp] theorem get?_put_self (names : Names α) (name : String) (a : α) :
    (names.put name a).get? name = some a := by simp [put, get?]

end Names

/-- What an embedding program keeps under names. -/
structure Directory where
  types : Names TypeId := []
  loaders : Names Loader := []
  scripts : Names ScriptType := []
  subtypes : Names TypeId := []
  instances : Names InstanceId := []
  values : Names Value := []
  dispatchers : Names DispatcherId := []
  platforms : Names PlatformId := []
  /-- The subtypes that the program keeps in a registry of its own. -/
  registry : Registry := {}

/-- Everything that can change. -/
structure World where
  types : TypeTable := []
  objects : Array ObjectState := #[]
  arrays : Array (Array Value) := #[]
  instances : Array Instance := #[]
  dispatchers : Array Dispatcher := #[]
  /-- The dispatcher of each generated type that has one. -/
  installed : List (TypeId × DispatcherId) := []
  platforms : Array Platform := #[]
  /-- What the computations in progress hold. -/
  held : List Holder := []
  /-- How many identities other than those above were given out. -/
  issued : Nat := 0
  /-- What bodies reported, in order. -/
  log : Array String := #[]
  names : Directory := {}

/-- Why a computation ends without a value. -/
inductive Halt where
  /-- It was given too few steps. -/
  | exhausted
  | raised (e : HostError)
deriving DecidableEq

/-- A computation on the world; what it changed stays changed when it ends without a value. -/
abbrev Action := ExceptT Halt (StateM World)

namespace Action

/-- Ends with an error. -/
def raise {α : Type} (e : HostError) : Action α := throw (.raised e)

/-- A result that does not depend on the world. -/
def ofExcept {α : Type} : Except HostError α → Action α
  | .ok a => pure a
  | .error e => raise e

/-- Goes on with a value or an error alike; a computation that ran out of steps stays so. -/
def outcome {α : Type} (x : Action α) : Action (Except HostError α) := fun w =>
  match x w with
  | (.ok a, w') => (.ok (.ok a), w')
  | (.error (.raised e), w') => (.ok (.error e), w')
  | (.error .exhausted, w') => (.error .exhausted, w')

/-- Runs a computation and then a change of the world, however the computation ended. -/
def finally_ {α : Type} (x : Action α) (after : World → World) : Action α := fun w =>
  match x w with
  | (result, w') => (result, after w')

/-- A conversion or check that looks at the types. -/
def withTypes {α : Type} (f : TypeTable → Except HostError α) : Action α := fun w =>
  ofExcept (f w.types) w

end Action

namespace World

/-- A new array. -/
def newArray (items : Array Value) : Action Value := fun w =>
  (.ok (.array ⟨w.arrays.size⟩), { w with arrays := w.arrays.push items })

/-- The items of an array. -/
def itemsOf (id : ArrayId) : Action (Array Value) := do
  return ((← get).arrays[id.index]?).getD #[]

/-- Replaces an item of an array. -/
def storeItem (id : ArrayId) (i : Nat) (v : Value) : Action Unit :=
  let store (items : Array Value) : Array Value := items.setIfInBounds i v
  modify fun w => { w with arrays := w.arrays.modify id.index store }

/-- Computes while some things are held. -/
def holding {α : Type} (holders : List Holder) (x : Action α) : Action α := fun w =>
  Action.finally_ x (fun after => { after with held := w.held })
    { w with held := holders ++ w.held }

/-- What is held for a computation is let go with it. -/
theorem held_holding {α : Type} (holders : List Holder) (x : Action α) (w : World) :
    (holding holders x w).2.held = w.held := rfl

/-- A new identity. -/
def issue : Action Nat := fun w => (.ok w.issued, { w with issued := w.issued + 1 })

/-- A new exception value. -/
def newThrowable (e : HostException) : Action Value := do
  return .throwable (← issue) e

/-- Reports a text. -/
def report (text : String) : Action Unit := modify fun w => { w with log := w.log.push text }

/-- The dispatcher of a generated type. -/
def dispatcherOf? (w : World) (id : TypeId) : Option DispatcherId :=
  (w.installed.find? (·.1 == id)).map (·.2)

/-- The platform of an identity, or one in its first state. -/
def platform (w : World) (p : PlatformId) : Platform :=
  w.platforms[p.index]?.getD ⟨{}, ⟨0⟩, {}, {}, {}, none⟩

/-- Changes the state of a platform. -/
def modifyPlatform (p : PlatformId) (f : Platform → Platform) : Action Unit :=
  modify fun w => { w with platforms := w.platforms.modify p.index f }

/-- Adds a dispatcher. -/
def addDispatcher (w : World) (d : Dispatcher) : DispatcherId × World :=
  (⟨w.dispatchers.size⟩, { w with dispatchers := w.dispatchers.push d })

/-- Adds a platform with its dispatcher. -/
def addPlatform (w : World) (options : PlatformOptions) : PlatformId × World :=
  let id : PlatformId := ⟨w.platforms.size⟩
  let (d, w) := w.addDispatcher (.routing id)
  (id, { w with platforms := w.platforms.push ⟨options, d, {}, {}, {}, none⟩ })

end World

end Interpose
