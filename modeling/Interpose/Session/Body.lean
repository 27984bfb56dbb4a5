import Interpose.Session.Reading
import Interpose.Machine.Expr
import Interpose.Generate.Root

/-!
# Reading bodies and declarations

An expression is a literal or a list of an operator and its operands. Types and script types are
declared by nodes with lists of fields, operations and functions.
-/

namespace Interpose.Command

/-- An expression. -/
def exprWithin : Nat → Tree → Command Expr
  | 0, _ => malformed "expression"
  | depth + 1, t =>
    match t with
    | .list [] => malformed "expression"
    | .list (op :: operands) => do
      let operand (i : Nat) : Tree := operands[i]?.getD .null
      let word (i : Nat) : Command String := str (operand i)
      let at_ (i : Nat) : Command Expr := exprWithin depth (operand i)
      let from_ (i : Nat) : Command (List Expr) := (operands.drop i).mapM (exprWithin depth)
      match ← str op with
      | "arg" => return .arg (← nat (operand 0))
      | "argc" => return .argCount
      | "args" => return .args
      | "this" => return .this
      | "seq" => return .seq (← from_ 0)
      | "log" => return .log (← at_ 0)
      | "get" => return .get (← word 0)
      | "set" => return .set (← word 0) (← at_ 1)
      | "call" => return .call (← word 0) (← from_ 1)
      | "callon" => return .callOn (← at_ 0) (← word 1) (← from_ 2)
      | "original" =>
        if operands.isEmpty then return .overridden none []
        else return .overridden (some (← word 0)) (← from_ 1)
      | "op" => return .operation
      | "throw" => return .throw ⟨exceptionKind (← word 0), ← word 1⟩
      | "fail" => return .fail (← word 0)
      | "try" => return .attempt (← at_ 0)
      | "if" =>
        if operands.length ≤ 2 then return .ite (← at_ 0) (← at_ 1) none
        else return .ite (← at_ 0) (← at_ 1) (some (← at_ 2))
      | "eq" => return .eq (← at_ 0) (← at_ 1)
      | "add" => return .add (← at_ 0) (← at_ 1)
      | "concat" => return .concat (← from_ 0)
      | "box" => return .box (← at_ 0)
      | "typename" => return .typeName (← at_ 0)
      | "constructing" => return .isConstructing
      | "active" => return .isActive
      | "bound" => return .isBound
      | "bind" => return .bind (← word 0)
      | "extend" => return .extend (← word 0) (← word 1)
      | "construct" => return .construct (← word 0) (← from_ 1)
      | other => malformed other
    | t => return .literal (← literal t)

/-- An expression. -/
def expr (t : Tree) : Command Expr := exprWithin t.depth t

/-- The fields that a tree declares. -/
def fieldsOf (t : Tree) : Command (List Field) :=
  (t.itemsOf "fields").mapM fun f => do
    return ⟨← strOf f "name", ← valueTypeOf f "type", ← modifiersOf f "mods"⟩

/-- The operations that a tree declares. -/
def methodDeclsOf (t : Tree) : Command (List MethodDecl) :=
  (t.itemsOf "methods").mapM fun m => do
    let body ← if m.has "body" then do
        let e ← expr (m.field "body")
        pure (some e.native)
      else pure none
    return ⟨← strOf m "name", ← valueTypesOf m "params", ← valueTypeOf m "returns",
      ← modifiersOf m "mods", body⟩

/-- The constructors that a tree declares. -/
def ctorDeclsOf (t : Tree) : Command (List CtorDecl) :=
  (t.itemsOf "ctors").mapM fun c => do
    let e ← expr (c.field "body")
    return ⟨← valueTypesOf c "params", ← modifiersOf c "mods", e.native⟩

/-- Declares a type. -/
def declareType (t : Tree) : Command Unit := do
  let name ← strOf t "name"
  let kind : TypeKind := if t.strOf? "kind" = some "interface" then .iface else .cls
  let modifiers ← if t.has "mods" then modifiersOf t "mods"
    else pure (TypeDecl.defaultModifiers kind)
  let superclass ← match t.given? "extends" with
    | none => pure none
    | some x => do pure (some (← typeNamed (← str x)))
  let interfaces ← typesOf t "implements"
  let loader ← loaderOf t "loader"
  let d : TypeDecl := ⟨name, kind, modifiers, superclass, interfaces, ← fieldsOf t,
    ← methodDeclsOf t, ← ctorDeclsOf t, loader⟩
  let (id, w) := (← world).declare d
  setWorld w
  keep fun n => { n with types := n.types.put ((t.strOf? "id").getD name) id }

/-- The functions that a tree declares. -/
def functionsOf (t : Tree) : Command (List ScriptFunction) :=
  (t.itemsOf "functions").mapM fun f => do
    let e ← expr (f.field "body")
    let arity ← match f.given? "arity" with
      | none => pure none
      | some n => do pure (some (← nat n))
    return .scripted (← strOf f "name") arity e.script

/-- Declares a script type. -/
def declareScript (t : Tree) : Command Unit := do
  let name ← strOf t "name"
  let base ← typeOf t "extends"
  let interfaces ← typesOf t "implements"
  let properties ← typesOf t "properties"
  let s := (← types).extendScript name base interfaces properties (← functionsOf t)
  keep fun n => { n with scripts := n.scripts.put ((t.strOf? "id").getD name) s }

end Interpose.Command
