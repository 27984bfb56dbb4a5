import Interpose.Generate.Root
import Interpose.Text.Marked

/-!
# What names stand for

The names that bodies and the embedding program use. The names of the given types and of the root
loader are reserved, and so are those that begin with the marker of a layer: nothing kept under
such a name is ever found. Literals are evaluated by looking up the names in them.
-/

namespace Interpose

namespace World

/-- The name of the root class. -/
def rootName : String := "$Object"

/-- The name of the capability interface. -/
def bridgeName : String := "$Bridge"

/-- The marker of the names of proxies, which is followed by the name of a subtype. -/
def proxyMarker : String := "proxy:"

/-- The marker of the names of bridges, which is followed by the name of a subtype. -/
def bridgeMarker : String := "bridge:"

/-- The type that a name stands for, or else the sort of thing that is missing: a given type, a
layer of a subtype, or a type that was declared or defined. -/
def typeNamed (w : World) (name : String) : Except String TypeId :=
  let subtype (s : String) : Except String TypeId :=
    (w.names.subtypes.get? s).elim (.error "subtype") .ok
  if name = rootName then .ok .root
  else if name = bridgeName then .ok .capability
  else
    match Text.after? proxyMarker name, Text.after? bridgeMarker name with
    | some s, _ => subtype s
    | none, some s => do
      let proxy ← subtype s
      ((w.types.lookup? proxy).bind (·.superclass)).elim (.error "type") .ok
    | none, none => (w.names.types.get? name).elim (.error "type") .ok

/-- The loader that a name stands for. -/
def loaderNamed? (w : World) (name : String) : Option Loader :=
  if name = Loader.system.name then some .system else w.names.loaders.get? name

theorem typeNamed_root (w : World) : w.typeNamed rootName = .ok .root := rfl

theorem typeNamed_bridge (w : World) : w.typeNamed bridgeName = .ok .capability := rfl

theorem loaderNamed?_system (w : World) : w.loaderNamed? Loader.system.name = some .system := rfl

/-- The error that nothing is kept under a name. -/
def nothingKept (sort name : String) : HostError := .nullPointer ("no " ++ sort ++ " " ++ name)

/-- What is kept under a name. -/
def kept {α : Type} (sort name : String) (names : Directory → Names α) : Action α := do
  match (names (← get).names).get? name with
  | some a => return a
  | none => Action.raise (nothingKept sort name)

/-- The type that a name stands for. -/
def keptType (name : String) : Action TypeId := do
  match (← get).typeNamed name with
  | .ok id => return id
  | .error sort => Action.raise (nothingKept sort name)

/-- The script object kept under a name. -/
def keptInstance (name : String) : Action InstanceId := kept "instance" name (·.instances)

/-- The variable of a name, or else the bridge of the script object of that name. -/
def keptValue (name : String) : Action Value := do
  let w ← get
  match w.names.values.get? name with
  | some v => return v
  | none =>
    match (w.names.instances.get? name).bind fun id => w.instances[id.index]? with
    | some i => return .object i.bridge
    | none => Action.raise (nothingKept "variable" name)

/-- Keeps a script object under a name. -/
def keepInstance (name : String) (id : InstanceId) : Action Unit :=
  modify fun w => { w with names := { w.names with instances := w.names.instances.put name id } }

mutual

/-- The value that a literal stands for, made anew. -/
def evaluate : Literal → Action Value
  | .value v => return v
  | .array items => do
    let items ← evaluateAll items
    newArray items.toArray
  | .throwable e => newThrowable e
  | .interpreter name => return .foreign (.interpreter (← keptInstance name))
  | .token => return .foreign (.token (← issue))
  | .dispatcher name => return .dispatcher (← kept "dispatcher" name (·.dispatchers))
  | .ref name => keptValue name

/-- The values that literals stand for. -/
def evaluateAll : List Literal → Action (List Value)
  | [] => return []
  | l :: rest => do
    let v ← evaluate l
    return v :: (← evaluateAll rest)

end

end World

end Interpose
