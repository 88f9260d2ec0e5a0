import Casework.Executor.Config
import Casework.Proofs.Json.RoundTrip

/-!
# Configurations are read back

A step whose configuration was encoded has that configuration, whatever the texts in it.
-/

namespace Casework.StepConfig

variable {α : Type} [StepConfig α] {s : Step} {config : α}

/-- A configuration is read back when its document is. -/
theorem decode?_of_encode {members : List (String × Json)}
    (h : s.configuration = some (encode config)) (hjson : toJson config = .object members)
    (hexact : ∀ m ∈ members, m.2.Exact)
    (hread : ofDocument? (Json.object members).toDocument = some config) :
    decode? s = .ok (some config) := by
  have hblank : Text.allBlank (encode config) = false := by
    rw [encode, hjson, Text.allBlank, Json.compact, String.toList_ofList, Json.compactChars]
    rfl
  have hdocument : Json.document? (encode config) = some (Json.object members).toDocument := by
    rw [encode, hjson]
    exact Json.document?_compact (.object hexact)
  rw [decode?, h]
  simp only [hblank, hdocument, Option.bind_some, hread]
  rfl

/-- To be there is all that is asked of a configuration that was read. -/
theorem decode_of_decode? (h : decode? s = .ok (some config)) : decode s = .ok config := by
  rw [decode, h]
  rfl

theorem decode?_decision {config : DecisionConfig} (h : s.configuration = some (encode config)) :
    decode? s = .ok (some config) := by
  refine decode?_of_encode h rfl ?_ rfl
  intro m hm
  obtain rfl := List.mem_singleton.1 hm
  exact .text _

theorem decode_decision {config : DecisionConfig} (h : s.configuration = some (encode config)) :
    decode s = .ok config :=
  decode_of_decode? (decode?_decision h)

theorem decode?_calculation {config : CalculationConfig}
    (h : s.configuration = some (encode config)) : decode? s = .ok (some config) := by
  refine decode?_of_encode h rfl ?_ rfl
  intro m hm
  obtain rfl := List.mem_singleton.1 hm
  exact .text _

theorem decode_calculation {config : CalculationConfig}
    (h : s.configuration = some (encode config)) : decode s = .ok config :=
  decode_of_decode? (decode?_calculation h)

theorem decode?_task {config : TaskConfig} (h : s.configuration = some (encode config)) :
    decode? s = .ok (some config) := by
  obtain ⟨title, assignee, instructions⟩ := config
  refine decode?_of_encode h rfl ?_ ?_
  · simp only [List.forall_mem_cons, List.not_mem_nil, false_implies, implies_true, and_true]
    exact ⟨.text _, Json.exact_optional _, Json.exact_optional _⟩
  · cases assignee <;> cases instructions <;> rfl

end Casework.StepConfig
