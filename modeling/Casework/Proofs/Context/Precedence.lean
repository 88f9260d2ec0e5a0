import Casework.Proofs.Context.Leaves

/-!
# Which write is found

An evaluation finds at a key what is written last to it: the facts of the case come first, and then,
entry by entry, the output under the name of the step and the leaves of the output under the names
that lead to them. An entry writes to its own name and to what lies below, so that for all other
keys it does not matter whether it is there.
-/

namespace Casework

namespace Json

mutual

/-- The leaves of a value with the names that lead to each, in the order of the members. -/
def namedLeaves : Json → List (List String × String)
  | .object members => namedMembers members
  | j => (j.leafText?.map fun text => ([], text)).toList

def namedMembers : List (String × Json) → List (List String × String)
  | [] => []
  | (name, j) :: ms => (namedLeaves j).map (fun l => (name :: l.1, l.2)) ++ namedMembers ms

end

variable {j : Json} {names : List String} {text : String} {members : List (String × Json)}
  {l : List String × String}

end Json

namespace Inputs

variable {data : Dictionary String} {c : Context} {name output text key : String}
  {names : List String}

/-! ### What an entry writes -/

mutual

theorem leaves_eq (above : String) : (j : Json) →
    leaves above j = j.namedLeaves.map fun l => (below above l.1, l.2)
  | .null | .array _ | .text _ | .int _ | .real _ | .bool _ => rfl
  | .object members => by rw [leaves, Json.namedLeaves, memberLeaves_eq above members]

theorem memberLeaves_eq (above : String) : (members : List (String × Json)) →
    memberLeaves above members =
      (Json.namedMembers members).map fun l => (below above l.1, l.2)
  | [] => rfl
  | (name, j) :: ms => by
    rw [memberLeaves, leaves_eq (path above name) j, memberLeaves_eq above ms, Json.namedMembers,
      List.map_append, List.map_map]
    rfl

end

end Inputs

end Casework
