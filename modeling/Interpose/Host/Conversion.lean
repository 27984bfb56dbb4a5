import Interpose.Host.Hierarchy
import Interpose.Primitive.Convert

/-!
# Acceptance and conversion

Which values a slot of a type accepts, and the conversions on the way into and out of slots: boxes
are made and opened, references are checked, and results of scripts become values of the type that
is asked for.
-/

namespace Interpose

/-- The kind of primitive that a type holds, raw or in its box. -/
def ValueType.boxedKind? : ValueType → Option Kind
  | .primitive k => some k
  | .reference name => Kind.ofBoxName? name
  | .void | .array _ => none

namespace TypeTable

/-- The name of what a value is at run time. -/
def typeName (types : TypeTable) : Value → String
  | .void => "void"
  | .null => "null"
  | .prim p => p.kind.keyword
  | .boxed p => p.kind.boxName
  | .str _ => stringName
  | .object o => types.nameOf o.cls
  | .array _ => "array"
  | .dispatcher _ => "dispatcher"
  | .operation _ => "operation"
  | .throwable _ e => e.kind.className
  | .foreign _ => "foreign"

/-- Whether a value other than null is of the reference type of a name. -/
def isOfType (types : TypeTable) (name : String) : Value → Bool
  | .str _ => name == stringName || name == objectName
  | .boxed p => name == p.kind.boxName || name == objectName
  | .object o => types.isSubtypeOf o.cls name
  | .array _ | .throwable _ _ | .foreign _ => name == objectName
  | .void | .null | .prim _ | .dispatcher _ | .operation _ => false

/-- Whether a slot of a type can hold a value as it stands. -/
def accepts (types : TypeTable) : ValueType → Value → Bool
  | .void, .void => true
  | .primitive k, .prim p => p.kind == k
  | .reference _, .null => true
  | .array _, .null => true
  | .array _, .array _ => true
  | .reference name, v => types.isOfType name v
  | _, _ => false

/-- Whether a value can be passed for a parameter of a type, boxed or raw. -/
def acceptsArgument (types : TypeTable) : ValueType → Value → Bool
  | .primitive k, .prim p => p.kind == k
  | .primitive k, .boxed p => p.kind == k
  | t, v => types.accepts t v.box

/-- Whether values can be passed for the parameters of an operation. -/
def acceptsArgs (types : TypeTable) (params : List ValueType) (args : List Value) : Bool :=
  params.length == args.length && (params.zip args).all fun (p, a) => types.acceptsArgument p a

/-- The operation that a call by name reaches: the first whose parameters accept the arguments,
or else the first with as many parameters. -/
def findMethodFor? (types : TypeTable) (id : TypeId) (name : String) (args : List Value) :
    Option Method :=
  let candidates := (types.methodsOf id).filter (·.answers name args.length)
  (candidates.find? fun m => types.acceptsArgs m.params args).or candidates.head?

/-- The error that a value is not of a type. -/
def mismatch (types : TypeTable) (expected : String) (v : Value) : HostError :=
  .typeMismatch expected (types.typeName v)

/-- A primitive of exactly a kind, taken out of its box if it is in one. -/
def unboxAs (types : TypeTable) (kind : Kind) (v : Value) : Except HostError Value :=
  match v.primitive? with
  | some p => if p.kind = kind then .ok (.prim p) else .error (types.mismatch kind.boxName v)
  | none =>
    if v = .null then .error (.nullPointer ("cannot unbox null to " ++ kind.keyword))
    else .error (types.mismatch kind.boxName v)

/-- A value that a slot of a type accepts once it is boxed. -/
def checkCast (types : TypeTable) (t : ValueType) (v : Value) : Except HostError Value :=
  if types.accepts t v.box then .ok v.box else .error (types.mismatch t.text v.box)

/-- A boxed value in the form in which slots of a type hold it. -/
def unboxOrCast (types : TypeTable) (t : ValueType) (v : Value) : Except HostError Value :=
  match t with
  | .void => .ok .void
  | .primitive kind => types.unboxAs kind v
  | .reference _ | .array _ => types.checkCast t v

/-- Each argument in the form in which its parameter holds it. -/
def coerceEach (types : TypeTable) : List ValueType → List Value → Except HostError (List Value)
  | t :: params, v :: args => do
    let first ← types.unboxOrCast t v
    let rest ← types.coerceEach params args
    return first :: rest
  | _, _ => .ok []

/-- Arguments in the form in which parameters hold them; there must be one for each. -/
def coerceArgs (types : TypeTable) (params : List ValueType) (args : List Value) :
    Except HostError (List Value) :=
  if params.length = args.length then types.coerceEach params args
  else .error (.argumentCount (signatureDescriptor params .void) params.length args.length)

/-- A result of a script as a boxed value of a type: numbers convert between kinds, nothing
becomes a raw primitive, and all else must be accepted as it is. -/
def toHost (types : TypeTable) (t : ValueType) (v : Value) : Except HostError Value :=
  let reference : Except HostError Value :=
    if types.accepts t v.box then .ok v.box else .error (types.mismatch t.text v.box)
  match t, t.boxedKind? with
  | .void, _ => .ok .void
  | _, none => reference
  | _, some kind =>
    match v.primitive? with
    | some p =>
      match p.convert kind with
      | some q => .ok (.boxed q)
      | none => .error (types.mismatch t.text (.boxed p))
    | none =>
      if v = .null ∧ t.kind?.isSome then
        .error (.nullPointer ("null returned for " ++ kind.keyword))
      else reference

end TypeTable

end Interpose
