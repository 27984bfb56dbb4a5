/-!
# Trees

The form in which a session receives commands and gives answers: texts, whole numbers, truth values,
lists, and nodes with named fields.
-/

namespace Interpose

/-- A tree. -/
inductive Tree where
  | null
  | bool (b : Bool)
  | int (n : Int)
  | str (s : String)
  | list (items : List Tree)
  | node (fields : List (String × Tree))
deriving Inhabited

namespace Tree

/-- A number that is not negative. -/
def nat (n : Nat) : Tree := int n

/-- A list of texts. -/
def strs (texts : List String) : Tree := list (texts.map str)

/-- A text, or null in its place. -/
def opt : Option String → Tree
  | some s => str s
  | none => null

/-- The field of a name. -/
def get? (t : Tree) (name : String) : Option Tree :=
  match t with
  | node fields => (fields.find? (·.1 == name)).map (·.2)
  | _ => none

/-- The field of a name, null if there is none. -/
def field (t : Tree) (name : String) : Tree := (t.get? name).getD null

/-- The field of a name, unless it is null. -/
def given? (t : Tree) (name : String) : Option Tree :=
  match t.get? name with
  | some null => none
  | found => found

/-- Whether there is a field of a name. -/
def has (t : Tree) (name : String) : Bool := (t.get? name).isSome

/-- The items of a list; anything else has none. -/
def items : Tree → List Tree
  | list ts => ts
  | _ => []

/-- The items of the list in a field. -/
def itemsOf (t : Tree) (name : String) : List Tree := (t.field name).items

/-- The item at a position of a list, null if there is none. -/
def item (t : Tree) (i : Nat) : Tree := t.items[i]?.getD null

/-- The text of a tree that is one. -/
def str? : Tree → Option String
  | str s => some s
  | _ => none

/-- The text in a field, if it is one. -/
def strOf? (t : Tree) (name : String) : Option String := (t.field name).str?

/-- The truth value in a field, or another one if it is none. -/
def boolOf (t : Tree) (name : String) (missing : Bool) : Bool :=
  match t.field name with
  | bool b => b
  | _ => missing

mutual

/-- How deep a tree is nested at most. -/
def depth : Tree → Nat
  | list ts => depthOfList ts + 1
  | node fields => depthOfFields fields + 1
  | null | bool _ | int _ | str _ => 1

/-- The depth of the deepest of some trees. -/
def depthOfList : List Tree → Nat
  | [] => 0
  | t :: rest => max t.depth (depthOfList rest)

/-- The depth of the deepest of some fields. -/
def depthOfFields : List (String × Tree) → Nat
  | [] => 0
  | (_, t) :: rest => max t.depth (depthOfFields rest)

end

end Tree

end Interpose
