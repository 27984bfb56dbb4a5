import Interpose.Session.Code
import Interpose.Session.Keeping
import Interpose.Session.Refusals
import Interpose.Session.Settings
import Interpose.Session.Queries
import Interpose.Generate.Layers

/-!
# Commands that emit code

Code is built and verified by itself, or as part of a class that is defined.
-/

namespace Interpose.Command

/-- Code, and how deep its stack grows or why it is refused. -/
def describeCode (t : Tree) : Command Tree := do
  let name := (t.strOf? "name").getD "demo.f()V"
  let params ← match t.given? "params" with
    | some n => nat n
    | none => pure 0
  let c ← code name params (t.field "code")
  let verified := match c.verify with
    | .ok depth => .nat depth
    | .error e => e.tree
  let counts := [("arity", .nat c.arity.toNat), ("locals", .nat c.locals.toNat),
    ("instr_count", .nat c.instrs.size), ("constant_count", .nat c.constants.size),
    ("verify", verified)]
  if t.boolOf "brief" false then return .node counts
  else
    return .node (counts ++ [("instrs", .list (c.instrs.toList.map instrTree)),
      ("constants", .list (c.constants.toList.map constantTree))])

/-- Keeps a type that was defined. -/
def keepDefined (t : Tree) (result : Except EmitError (TypeId × World)) : Command Tree := do
  let (id, w) ← ofExcept .emit result
  setWorld w
  keepType t id

/-- Defines a class. -/
def defineClass (t : Tree) : Command Tree := do
  let loader ← loaderOf t "loader"
  let e ← emitterOf t
  let d ← classDef (t.field "def")
  keepDefined t (e.define (← world) d loader)

/-- Emits the bridge of a base. -/
def emitBridge (t : Tree) : Command Tree := do
  let base ← hostType (← typeOf t "base")
  let properties ← typesOf t "properties"
  let abstracts ← (t.itemsOf "abstracts").mapM methodOf
  let loader ← loaderOf t "loader"
  let e ← emitterOf t
  let pairs ← ofExcept .harvest ((← types).harvestProperties properties)
  keepDefined t (e.bridge (← world) base abstracts pairs properties loader)

/-- Emits the proxy on a bridge. -/
def emitProxy (t : Tree) : Command Tree := do
  let bridge ← hostType (← typeOf t "bridge")
  let base ← hostType (← typeOf t "base")
  let chain ← hostTypesOf t "chain"
  let sources ← hostTypesOf t "operations_from"
  let interfaces ← typesOf t "interfaces"
  let loader ← loaderOf t "loader"
  let e ← emitterOf t
  let operations := intercept (chain ++ sources)
  keepDefined t (e.proxy (← world) bridge base operations interfaces loader)

/-- The commands that emit code. -/
def onEmission : List (String × (Tree → Command Tree)) :=
  [("code", describeCode), ("define", defineClass), ("emit_bridge", emitBridge),
    ("emit_proxy", emitProxy)]

end Interpose.Command
