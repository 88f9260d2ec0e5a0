import Casework.Proofs.Context.Latest
import Casework.Proofs.Json.Proper

/-!
# The leaves of an output

An output that is a JSON object writes each text, number and truth value in it under the names that
lead there, joined by dots. A name may itself have dots, so that two leaves can meet at one key. A leaf
that has its key to itself is found there, as it is, unless it is a fraction: these have been rounded.
-/

namespace Casework

/-! ### Ways into a value -/

namespace Json

/-- What an object says under a name. -/
def member? (name : String) : Json → Option Json
  | .object members => (members.find? (·.1 == name)).map Prod.snd
  | _ => none

/-- What a text, a number or a truth value is written as in the inputs of an evaluation. -/
def leafText? : Json → Option String
  | .text s => some s
  | .int i => some (Json.int i).compact
  | .real x => some x.scientific
  | .bool b => some (if b then "true" else "false")
  | _ => none

variable {f : Double → Double} {name text : String} {names : List String} {j leaf : Json}
  {members : List (String × Json)}

end Json

namespace Inputs

open Json

variable {above name other text key : String} {names : List String} {j leaf : Json}
  {members : List (String × Json)}

/-! ### Keys -/

/-- The key of what lies behind these names. -/
def below (above : String) (names : List String) : String := names.foldl path above

theorem path_inj : path above name = path above other ↔ name = other :=
  String.append_right_inj (above ++ ".")

theorem path_path (above name other : String) :
    path (path above name) other = path above (path name other) := by
  simp only [path, String.append_assoc]

theorem path_ne_self (above name : String) : path above name ≠ above := by
  intro h
  have hlength := congrArg String.length h
  simp only [path, String.length_append] at hlength
  have hdot : ".".length = 1 := rfl
  omega

end Inputs

namespace Json

variable {j : Json} {members : List (String × Json)}

end Json

end Casework
