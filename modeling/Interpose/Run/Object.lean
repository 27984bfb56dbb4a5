import Interpose.Run.Liveness

/-!
# Objects

Allocation, fields and binding. An object has a value for each field name of its class and the
superclasses of that, and a value is only stored if the declared type of the field accepts it.
-/

namespace Interpose

namespace TypeTable

/-- The fields of new objects of a type with their first values; a name that is declared again
below hides the one above. -/
def initialFields (types : TypeTable) (id : TypeId) : List (String × Value) :=
  ((types.lineage id).flatMap (·.fields)).foldl
    (fun fields f =>
      if fields.any (·.1 == f.name) then fields else fields ++ [(f.name, Value.default f.type)])
    []

end TypeTable

namespace World

/-- A new object of a type that is not abstract. -/
def allocate (cls : TypeId) : Action ObjectRef := do
  let w ← get
  match w.types.lookup? cls with
  | none => Action.raise (.instantiation "")
  | some t =>
    if t.isAbstract then Action.raise (.instantiation t.text)
    else
      set { w with objects := w.objects.push ⟨cls, w.types.initialFields cls, .unbound⟩ }
      return ⟨w.objects.size, cls⟩

/-- The fields of an object. -/
def fieldsOf (w : World) (o : ObjectRef) : List (String × Value) :=
  match w.objects[o.index]? with
  | none => []
  | some state => state.fields

/-- The class that an object was allocated as. -/
def allocatedAs (w : World) (o : ObjectRef) : TypeId :=
  match w.objects[o.index]? with
  | none => o.cls
  | some state => state.cls

/-- The error that an object has no field of a name. -/
def noSuchField (w : World) (o : ObjectRef) (name : String) : HostError :=
  .noSuchField (w.types.nameOf o.cls ++ "." ++ name)

/-- The value of a field. -/
def getField (o : ObjectRef) (name : String) : Action Value := do
  let w ← get
  match (w.fieldsOf o).find? (·.1 == name) with
  | some (_, v) => return v
  | none => Action.raise (w.noSuchField o name)

/-- Fields with one of them set. -/
def setIn (fields : List (String × Value)) (name : String) (v : Value) : List (String × Value) :=
  fields.map fun f => if f.1 == name then (f.1, v) else f

/-- Stores a value in a field whose declared type accepts it. -/
def setField (o : ObjectRef) (name : String) (v : Value) : Action Unit := do
  let w ← get
  match w.types.findField? (w.allocatedAs o) name with
  | none => Action.raise (w.noSuchField o name)
  | some field =>
    if w.types.accepts field.type v then
      set { w with objects := w.objects.modify o.index fun s =>
        { s with fields := setIn s.fields name v } }
    else Action.raise (w.types.mismatch field.type.text v)

/-- Whether an object was ever bound. -/
def isBound (w : World) (o : ObjectRef) : Bool :=
  match w.objects[o.index]? with
  | none => false
  | some state => state.binding.isSet

/-- Binds an object to a script object unless it is bound already, and says whether it was not. -/
def bind (o : ObjectRef) (id : InstanceId) : Action Bool := do
  let w ← get
  if w.isBound o then return false
  else
    set { w with objects := w.objects.modify o.index fun s => { s with binding := .bound id } }
    return true

/-- The script object that an object is bound to. What is gone does not come back, so a binding to
it is remembered as lapsed. -/
def boundTo (o : ObjectRef) : Action (Option InstanceId) := do
  let w ← get
  match w.bound? o with
  | some id => return some id
  | none =>
    if w.isBound o then
      set { w with objects := w.objects.modify o.index fun s => { s with binding := .lapsed } }
    return none

end World

end Interpose
