import Interpose.Signature.ValueType

/-!
# Slots

Operations override one another exactly when they occupy one slot: the same name, result type and
parameter types. Slots are ordered by name, then result, then parameters.
-/

namespace Interpose

/-- What two operations have in common when one overrides the other. -/
structure Slot where
  name : String
  returns : ValueType
  params : List ValueType
deriving DecidableEq, Inhabited

namespace Slot

/-- A slot in source form. -/
def text (s : Slot) : String :=
  s.returns.text ++ " " ++ s.name ++ "(" ++ ", ".intercalate (s.params.map (·.text)) ++ ")"

/-- The order of parameter lists: by the first difference, a shorter list first. -/
def compareParams : List ValueType → List ValueType → Ordering
  | [], [] => .eq
  | [], _ :: _ => .lt
  | _ :: _, [] => .gt
  | p :: ps, q :: qs => (Ord.compare p q).then (compareParams ps qs)

/-- The order of operation tables. -/
protected def compare (a b : Slot) : Ordering :=
  ((Ord.compare a.name b.name).then (Ord.compare a.returns b.returns)).then
    (compareParams a.params b.params)

instance : Ord Slot := ⟨Slot.compare⟩

end Slot

end Interpose
