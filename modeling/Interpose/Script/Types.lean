import Interpose.Host.Conversion

/-!
# Script types

A script type extends a host type. Its functions are those that the script defines, in the order
of definition, and after them one for each slot of the hierarchy it extends. `resolve?` says which
of them answers a call.
-/

namespace Interpose

/-- The behaviour of a function that a script defines, given the script object, its bridge and the
arguments. -/
abbrev ScriptBody := InstanceId → ObjectRef → List Value → Program

/-- A function of a script type. -/
inductive ScriptFunction where
  /-- A function that the script defines; without an arity it takes any number of arguments. -/
  | scripted (name : String) (arity : Option Nat) (body : ScriptBody)
  /-- A function that stands for an operation of the host. -/
  | imported (source : Method)

namespace ScriptFunction

/-- The name of a function. -/
def name : ScriptFunction → String
  | scripted name _ _ => name
  | imported source => source.name

/-- How many arguments a function takes, if it is not any number. -/
def arity : ScriptFunction → Option Nat
  | scripted _ arity _ => arity
  | imported source => some source.params.length

/-- The operation that a function stands for. -/
def source? : ScriptFunction → Option Method
  | scripted _ _ _ => none
  | imported source => some source

/-- Whether a function is defined by the script. -/
def isScript : ScriptFunction → Bool
  | scripted _ _ _ => true
  | imported _ => false

/-- Whether a function takes a number of arguments. -/
def accepts (f : ScriptFunction) (count : Nat) : Bool :=
  match f.arity with
  | none => true
  | some n => n == count

/-- Whether a function stands for an operation that has no body. -/
def isAbstractOnHost : ScriptFunction → Bool
  | scripted _ _ _ => false
  | imported source => source.isAbstract

end ScriptFunction

/-- A script type. -/
structure ScriptType where
  name : String
  base : TypeId
  interfaces : List TypeId
  /-- The interfaces whose accessors become properties with storage. -/
  propertyInterfaces : List TypeId
  functions : List ScriptFunction

namespace ScriptType

/-- The functions of a name, those that the script defines first. -/
def named (s : ScriptType) (name : String) : List ScriptFunction :=
  s.functions.filter (·.name == name)

/-- Whether the script defines a function of a name. -/
def defines (s : ScriptType) (name : String) : Bool := (s.named name).any (·.isScript)

/-- How many function names there are. -/
def nameCount (s : ScriptType) : Nat := (s.functions.map (·.name)).eraseDups.length

/-- The function that answers a call: the first that the script defines for the number of arguments,
or else the first imported one whose operation accepts the arguments, or else the first imported
one with that number of parameters. -/
def resolve? (types : TypeTable) (s : ScriptType) (name : String) (args : List Value) :
    Option ScriptFunction :=
  let candidates := (s.named name).filter (·.accepts args.length)
  match candidates.find? (·.isScript) with
  | some f => some f
  | none =>
    let imported := candidates.filter fun f => !f.isScript
    (imported.find? fun f => f.source?.any fun m => types.acceptsArgs m.params args).or
      imported.head?

end ScriptType

namespace TypeTable

/-- Adds the operations that calls can reach and whose slots are not yet there. -/
def importNew (imported : List Method) (methods : List Method) : List Method :=
  methods.foldl
    (fun found m => if m.isVirtual && !found.any (·.slot == m.slot) then found ++ [m] else found)
    imported

/-- The operations of an interface and of those it extends, each before those it extends. An interface
that is reached twice adds no slot the second time, so it is looked at once. -/
def interfaceMethods (types : TypeTable) (id : TypeId) : List Method :=
  (types.collect id []).flatMap (·.methods)

/-- The script type with the functions that a script defines, extending a base and further
interfaces. -/
def extendScript (types : TypeTable) (name : String) (base : TypeId)
    (interfaces properties : List TypeId) (defined : List ScriptFunction) : ScriptType :=
  let inherited := importNew [] (types.methodsOf base)
  let all := (interfaces ++ properties).foldl
    (fun found i => importNew found (types.interfaceMethods i)) inherited
  ⟨name, base, interfaces, properties, defined ++ all.map .imported⟩

end TypeTable

end Interpose
