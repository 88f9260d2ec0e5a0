import Casework.Context.Inputs
import Casework.Proofs.Json.RoundTrip

/-!
# Contexts are read back

What an execution gets to see is a context written as JSON. Whatever the texts in it, it is read
again.
-/

namespace Casework

namespace Context

theorem toJson_exact (c : Context) : c.toJson.Exact := by
  refine .object ?_
  intro m hm
  obtain ⟨e, -, rfl⟩ := List.mem_map.1 hm
  exact .text e.2

theorem entries?_toEntries (entries : List (String × String)) :
    entries? (Json.toEntries (entries.map fun e => (e.1, .text e.2))) = some entries := by
  induction entries with
  | nil => rfl
  | cons e entries ih =>
    rw [List.map_cons, Json.toEntries, Json.toDocument, entries?, ih]
    rfl

theorem ofText?_render (c : Context) : ofText? c.render = some (ofList c.entries) := by
  rw [ofText?, render, Json.document?_compact c.toJson_exact, toJson, Json.toDocument]
  simp only [Option.bind_eq_bind, Option.bind_some, entries?_toEntries]
  rfl

end Context

/-- The inputs of an execution that has been shown a context can be read. -/
theorem Inputs.ofExecution?_of_render {e : Execution} {c : Context} (h : e.input = some c.render)
    (data : Dictionary String) :
    Inputs.ofExecution? e data = some (build data (.ofList c.entries)) := by
  rw [ofExecution?, h]
  simp only [Context.ofText?_render, Option.map_some]

end Casework
