import Casework.Document.Decode

/-!
# What is looked at

A shape tells which parts of a document its reader looks at. Nothing that is wrong with the others
does any harm.
-/

namespace Casework

inductive Shape where
  | whole
  | list (item : Shape)
  /-- A table of which some fields are looked at. -/
  | record (fields : List (String × Shape))

namespace Shape

/-- The fields with these names, each as a whole. -/
def wholeFields (names : List String) : List (String × Shape) := names.map (·, .whole)

/-- What is looked at in the items of a list, if there may be a list. -/
def item? : Shape → Option Shape
  | .whole => some .whole
  | .list item => some item
  | .record _ => none

/-- What is looked at in the values of a table, given their keys, if there may be a table. -/
def field? : Shape → Option (Document → Option Shape)
  | .whole => some fun _ => some .whole
  | .list _ => none
  | .record fields => some fun key => key.text?.bind (List.lookup · fields)

end Shape

end Casework
