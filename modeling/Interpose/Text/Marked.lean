/-!
# Marked names

Names that begin with a marker, which says what the rest of the name stands for.
-/

namespace Interpose.Text

/-- The rest of a name that begins with a marker. -/
def after? (marker name : String) : Option String :=
  if marker.toList.isPrefixOf name.toList then
    some (String.ofList (name.toList.drop marker.toList.length))
  else none

theorem after?_append (marker rest : String) : after? marker (marker ++ rest) = some rest := by
  simp [after?]

end Interpose.Text
