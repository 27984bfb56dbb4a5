import Interpose.Host.Fault
import Interpose.Signature.Slot

/-!
# Programs of bodies

What a body written outside this library does, as a tree: it ends with a value or an error, or asks
for something and goes on with the answer. A body so described may ask for anything that the
platform offers, in any order and depending on every answer, errors included. While it waits for an
answer it holds the values that it still means to use.
-/

namespace Interpose

/-- A value as it is written down; arrays, exceptions and handles become new ones each time. -/
inductive Literal where
  | value (v : Value)
  | array (items : List Literal)
  | throwable (e : HostException)
  /-- The script object kept under a name. -/
  | interpreter (name : String)
  /-- A handle that nothing else knows. -/
  | token
  /-- The dispatcher kept under a name. -/
  | dispatcher (name : String)
  /-- The value kept under a name, or else the bridge of the script object kept there. -/
  | ref (name : String)
deriving Inhabited

/-- What a body can ask for. Names are looked up when they are needed. -/
inductive Request where
  | evaluate (l : Literal)
  | newArray (items : List Value)
  | log (text : String)
  | getField (o : ObjectRef) (name : String)
  | setField (o : ObjectRef) (name : String) (v : Value)
  /-- A virtual call by name. -/
  | call (o : ObjectRef) (name : String) (args : List Value)
  /-- A virtual call of a slot. -/
  | invoke (o : ObjectRef) (slot : Slot) (args : List Value)
  /-- A new object of the type that a name stands for. -/
  | construct (type : String) (params : List ValueType) (args : List Value)
  | getProperty (i : InstanceId) (name : String)
  | setProperty (i : InstanceId) (name : String) (v : Value)
  /-- What an operation of a script object overrides. -/
  | overridden (i : InstanceId) (name : String) (args : List Value)
  /-- What the operation at a position of the receiver's table overrides. -/
  | overriddenAt (o : ObjectRef) (operation : Nat) (args : List Value)
  | typeName (v : Value)
  | isConstructing (o : ObjectRef)
  | isActive
  | isBound (o : ObjectRef)
  /-- Binds an object to the script object kept under a name. -/
  | bind (o : ObjectRef) (name : String)
  /-- A new object of the script type kept under a name, itself kept under another. -/
  | extend (script name : String)

/-- The behaviour of a body. -/
inductive Program where
  | done (v : Value)
  | fail (e : HostError)
  | ask (held : List Value) (r : Request) (next : Except HostError Value → Program)

namespace Program

/-- Asks for something and ends with the error if there is one. -/
def need (held : List Value) (r : Request) (next : Value → Program) : Program :=
  ask held r fun
    | .ok v => next v
    | .error e => fail e

/-- Goes on after a program in either case. -/
def attempt : Program → (Except HostError Value → Program) → Program
  | done v, next => next (.ok v)
  | fail e, next => next (.error e)
  | ask held r k, next => ask held r fun answer => (k answer).attempt next

/-- Goes on after a program that ended with a value. -/
def andThen (p : Program) (next : Value → Program) : Program :=
  p.attempt fun
    | .ok v => next v
    | .error e => fail e

@[simp] theorem andThen_done (v : Value) (next : Value → Program) :
    (done v).andThen next = next v := rfl

@[simp] theorem andThen_fail (e : HostError) (next : Value → Program) :
    (fail e).andThen next = fail e := rfl

end Program

end Interpose
