import Interpose.Run.World
import Interpose.Primitive.Text
import Interpose.Text.Quoted

/-!
# Descriptions

How declarations are listed, and how values, objects and types are shown for inspection.
-/

namespace Interpose

/-- What sort of body an operation has. -/
def MethodBody.sort : MethodBody → String
  | abstract => "Abstract"
  | native _ => "Native"
  | compiled unit => "Compiled(" ++ unit.image.backend.name ++ ")"

/-- An operation in a list: its modifiers, its text and its sort of body. -/
def Method.listing (m : Method) : String := m.modifiers.text ++ " " ++ m.text ++ " " ++ m.body.sort

/-- A constructor in a list. -/
def Constructor.listing (c : Constructor) : String := c.modifiers.text ++ " " ++ c.text

/-- A field in a list. -/
def Field.listing (f : Field) : String := f.modifiers.text ++ " " ++ f.type.text ++ " " ++ f.name

namespace Describe

open Text (quoted)

/-- A record with named entries. -/
def record (name : String) (entries : List (String × String)) : String :=
  name ++ " \x7b " ++ ", ".intercalate (entries.map fun e => e.1 ++ ": " ++ e.2) ++ " \x7d"

/-- A list of entries. -/
def list (entries : List String) : String := "[" ++ ", ".intercalate entries ++ "]"

/-- Something that may be missing. -/
def optional : Option String → String
  | some text => "Some(" ++ text ++ ")"
  | none => "None"

/-- A truth value. -/
def truth (b : Bool) : String := Primitive.boolText b

/-- An identity of a sort. -/
def identity (sort : String) (n : Nat) : String := sort ++ "Id(" ++ toString n ++ ")"

/-- A value. -/
def value (w : World) : Value → String
  | .void => "Void"
  | .null => "Null"
  | .prim p => "Prim(" ++ p.inspect ++ ")"
  | .boxed p => "Boxed(" ++ p.inspect ++ ")"
  | .str s => "Str(" ++ quoted s ++ ")"
  | .object o => "Object(" ++ w.types.nameOf o.cls ++ "#" ++ toString o.index ++ ")"
  | .array id => "Array(len=" ++ toString (w.arrays[id.index]?.getD #[]).size ++ ")"
  | .dispatcher _ => "Dispatcher"
  | .operation n => "Operation(" ++ toString n ++ ")"
  | .throwable _ e => "Throwable(" ++ e.text ++ ")"
  | .foreign _ => "Foreign"

/-- An object. -/
def object (w : World) (o : ObjectRef) : String :=
  let isBound := match w.objects[o.index]? with
    | some state => state.binding.isSet
    | none => false
  record "HostObject" [("id", identity "Object" o.index), ("class", quoted (w.types.nameOf o.cls)),
    ("bound", truth isBound)]

/-- A script object. -/
def instance_ (i : Instance) : String :=
  record "Instance" [("script_type", quoted i.script.name),
    ("bridge", identity "Object" i.bridge.index)]

/-- A script type; scripts have no identity apart from what they hold. -/
def script (types : TypeTable) (s : ScriptType) : String :=
  record "ScriptType" [("id", identity "ScriptType" 0), ("name", quoted s.name),
    ("base", quoted (types.nameOf s.base)), ("functions", toString s.nameCount)]

/-- A function. -/
def function (f : ScriptFunction) : String :=
  record "ScriptFunction" [("name", quoted f.name), ("arity", optional (f.arity.map toString)),
    ("source", optional (f.source?.map fun m => quoted m.text)), ("script", truth f.isScript)]

/-- A generated subtype. -/
def subtype (t : HostType) : String :=
  let count := match t.generated with
    | some g => g.operations.length
    | none => 0
  record "GeneratedSubtype" [("name", quoted t.name), ("operations", toString count)]

/-- The generation record of a type. -/
def generation (w : World) (id : TypeId) (g : Generation) : String :=
  record "GeneratedInfo" [("role", g.role.word), ("base", quoted (w.types.nameOf g.base)),
    ("operations", toString g.operations.length),
    ("dispatcher", truth (w.dispatcherOf? id).isSome)]

/-- A type. -/
def type (w : World) (t : HostType) : String :=
  record "HostType" [("id", identity "HostType" t.id.index), ("name", quoted t.name),
    ("kind", if t.isInterface then "Interface" else "Class"),
    ("superclass", optional (t.superclass.map fun s => quoted (w.types.nameOf s))),
    ("methods", toString t.methods.length),
    ("generated", optional (t.generated.map (generation w t.id)))]

/-- A constructor. -/
def ctor (c : Constructor) : String := "Constructor(" ++ c.text ++ ")"

/-- A loader. -/
def loader (l : Loader) : String := "Loader(" ++ l.name ++ "#" ++ toString l.id ++ ")"

end Describe

end Interpose
