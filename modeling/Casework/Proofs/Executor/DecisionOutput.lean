import Casework.Proofs.Context.Leaves
import Casework.Proofs.Engine.Handover
import Casework.Proofs.Executor.BuiltIn
import Casework.Proofs.Executor.Config

/-!
# What a decision tells later steps

A decision table answers with a JSON text. In the inputs of a later evaluation, to which this text
was written last, there stands whether a rule has decided, and if so which one and with what outputs,
each text exactly as the rule set has it. If none has decided, nothing is written of a rule or of
outputs.
-/

namespace Casework

open Json

/-! ### The text is read back -/

namespace Executor

/-- The answer of a decision table, before it is written as a text. -/
def decisionMembers : Option Rule → List (String × Json)
  | some r => [("matched", .bool true), ("outputs", .object (r.outputs.map Json.text).entries),
      ("rule_id", .text r.id)]
  | none => [("matched", .bool false), ("outputs", .object []), ("rule_id", .null)]

theorem decisionOutput_eq (decision : Option Rule) :
    decisionOutput decision = (Json.object (decisionMembers decision)).compact := by
  cases decision <;> rfl

theorem decisionMembers_exact (decision : Option Rule) :
    (Json.object (decisionMembers decision)).Exact := by
  refine .object ?_
  cases decision with
  | none =>
    simp only [decisionMembers, List.forall_mem_cons]
    exact ⟨.bool false, .object (by simp), .null, by simp⟩
  | some r =>
    simp only [decisionMembers, List.forall_mem_cons]
    refine ⟨.bool true, .object ?_, .text r.id, by simp⟩
    intro m hm
    obtain ⟨e, -, rfl⟩ := List.mem_map.1 hm
    exact .text e.2

theorem ofEntries?_texts (depth : Nat) (es : List (String × String)) :
    ofEntries? depth (toEntries (es.map fun e => (e.1, Json.text e.2))) =
      some (es.map fun e => (e.1, Json.text e.2)) := by
  induction es with
  | nil => rfl
  | cons e es ih =>
    rw [List.map_cons, toEntries, toDocument, ofEntries?, ih]
    rfl

theorem ofEntries?_decisionMembers (depth : Nat) (decision : Option Rule) :
    ofEntries? (depth + 1) (toEntries (decisionMembers decision)) =
      some (decisionMembers decision) := by
  cases decision with
  | none => rfl
  | some r =>
    let outputs := r.outputs.map Json.text
    have houtputs : ofDocument? (depth + 1) (Json.object outputs.entries).toDocument =
        some (.object outputs.entries) := by
      simp only [outputs]
      rw [toDocument, ofDocument?, Dictionary.map, ofEntries?_texts]
      exact congrArg some (ofTable_of_ascending (r.outputs.map Json.text).ascending)
    simp only [decisionMembers, toEntries, ofEntries?, Document.text?, outputs, houtputs]
    rfl

theorem decisionMembers_ascending (decision : Option Rule) :
    (decisionMembers decision).Pairwise fun a b => a.1 < b.1 := by
  have hnames : (decisionMembers decision).map Prod.fst = ["matched", "outputs", "rule_id"] := by
    cases decision <;> rfl
  have hascending : ["matched", "outputs", "rule_id"].Pairwise (· < ·) := by decide
  exact List.pairwise_map.1 (hnames ▸ hascending)

/-- What a decision table answers is read back as it has been told. -/
theorem ofText?_decisionOutput (decision : Option Rule) :
    Json.ofText? (decisionOutput decision) = some (.object (decisionMembers decision)) := by
  rw [Json.ofText?, decisionOutput_eq, document?_compact (decisionMembers_exact decision),
    Option.bind_some, maxDepth, toDocument, ofDocument?, ofEntries?_decisionMembers]
  exact congrArg some (ofTable_of_ascending (decisionMembers_ascending decision))

end Executor

/-! ### What is written to the inputs -/

namespace Inputs

theorem memberLeaves_texts (above : String) (es : List (String × String)) :
    memberLeaves above (es.map fun e => (e.1, Json.text e.2)) =
      es.map fun e => (path above e.1, e.2) := by
  induction es with
  | nil => rfl
  | cons e es ih =>
    rw [List.map_cons, memberLeaves, leaves, ih]
    rfl

theorem entryWrites_decisionOutput_some (name : String) (rule : Rule) :
    entryWrites name (Executor.decisionOutput (some rule)) =
      (name, Executor.decisionOutput (some rule)) :: (path name "matched", "true") ::
        (rule.outputs.entries.map (fun e => (path (path name "outputs") e.1, e.2)) ++
          [(path name "rule_id", rule.id)]) := by
  rw [entryWrites, Executor.ofText?_decisionOutput]
  simp only [Executor.decisionMembers, memberLeaves, leaves, Dictionary.map, memberLeaves_texts]
  rfl

theorem entryWrites_decisionOutput_none (name : String) :
    entryWrites name (Executor.decisionOutput none) =
      [(name, Executor.decisionOutput none), (path name "matched", "false")] := by
  rw [entryWrites, Executor.ofText?_decisionOutput]
  rfl

/-! ### Where a decision is found -/

variable {name other : String}

theorem outputs_ne_matched (key : String) : path "outputs" key ≠ "matched" := by
  intro h
  simpa [path] using congrArg String.toList h

theorem outputs_ne_ruleId (key : String) : path "outputs" key ≠ "rule_id" := by
  intro h
  simpa [path] using congrArg String.toList h

/-- What the inputs tell of a decision, given those without the step that has made it: the rule and
its outputs, or else that there is none, and then nothing more. -/
def Tells (inputs rest : Inputs) (name : String) : Option Rule → Prop
  | some rule =>
    inputs.get? (path name "matched") = some "true" ∧
      inputs.get? (path name "rule_id") = some rule.id ∧
      ∀ key value, rule.outputs.get? key = some value →
        inputs.get? (path (path name "outputs") key) = some value
  | none =>
    inputs.get? (path name "matched") = some "false" ∧
      inputs.get? (path name "rule_id") = rest.get? (path name "rule_id") ∧
      ∀ key, inputs.get? (path (path name "outputs") key) =
        rest.get? (path (path name "outputs") key)

variable {data : Dictionary String} {c : Context}

theorem tells_some (data : Dictionary String) (c : Context) (name : String) (rule : Rule) :
    (build data (c.insert name (Executor.decisionOutput (some rule)))).Tells
      (build data (c.without name)) name (some rule) := by
  have hwrites := entryWrites_decisionOutput_some name rule
  have houtputs : ∀ key, path (path name "outputs") key ≠ path name "matched" ∧
      path (path name "outputs") key ≠ path name "rule_id" := fun key => by
    rw [path_path]
    exact ⟨fun h => outputs_ne_matched key (path_inj.1 h),
      fun h => outputs_ne_ruleId key (path_inj.1 h)⟩
  refine ⟨?_, ?_, ?_⟩
  · refine get?_build_of_last [_] hwrites ?_
    intro e he
    rcases List.mem_append.1 he with he | he
    · obtain ⟨output, -, rfl⟩ := List.mem_map.1 he
      exact (houtputs output.1).1
    · obtain rfl := List.mem_singleton.1 he
      exact fun h => absurd (path_inj.1 h) (by decide)
  · exact get?_build_of_last (_ :: _ :: _) hwrites nofun
  · intro key value hvalue
    obtain ⟨front, behind, hentries⟩ :=
      List.append_of_mem (Dictionary.get?_eq_some_iff.1 hvalue)
    have hascending := rule.outputs.ascending
    rw [hentries, List.pairwise_append, List.pairwise_cons] at hascending
    rw [hentries, List.map_append, List.map_cons, List.append_assoc, List.cons_append] at hwrites
    refine get?_build_of_last (_ :: _ :: _) hwrites ?_
    intro e he
    rcases List.mem_append.1 he with he | he
    · obtain ⟨output, hbehind, rfl⟩ := List.mem_map.1 he
      intro h
      have hlt := hascending.2.1.1 output hbehind
      rw [path_inj.1 h] at hlt
      exact String.lt_irrefl _ hlt
    · obtain rfl := List.mem_singleton.1 he
      exact (houtputs key).2.symm

theorem tells_none (data : Dictionary String) (c : Context) (name : String) :
    (build data (c.insert name (Executor.decisionOutput none))).Tells
      (build data (c.without name)) name none := by
  have hwrites := entryWrites_decisionOutput_none name
  have hunwritten : ∀ key, key ≠ "matched" →
      (build data (c.insert name (Executor.decisionOutput none))).get? (path name key) =
        (build data (c.without name)).get? (path name key) := by
    intro key hkey
    refine get?_build_of_unwritten ?_
    rw [hwrites]
    simp only [List.forall_mem_cons]
    exact ⟨(path_ne_self name key).symm, fun h => hkey (path_inj.1 h).symm, nofun⟩
  refine ⟨get?_build_of_last [_] hwrites nofun, hunwritten _ (by decide), ?_⟩
  intro key
  rw [path_path]
  exact hunwritten _ (outputs_ne_matched key)

/-- Whatever has been written before, the last entry tells of its decision. -/
theorem tells_of_insert (data : Dictionary String) (c : Context) (name : String)
    (decision : Option Rule) :
    (build data (c.insert name (Executor.decisionOutput decision))).Tells
      (build data (c.without name)) name decision := by
  cases decision with
  | none => exact tells_none data c name
  | some rule => exact tells_some data c name rule

end Inputs

/-! ### From a decision table to the next step -/

variable {σ : Type}

namespace Executor

theorem decisionTable_looks : (decisionTable : Executor σ).Looks decisionReply :=
  decisionTable_apply

/-- A decision table that completes has decided on the inputs of its execution. -/
theorem decisionReply_completes {store : Store} {step : Step} {execution : Execution}
    {record : CaseRecord} {output : Option String}
    (h : (decisionReply store step execution record).outcome.Completes output) :
    ∃ (config : DecisionConfig) (ruleSet : RuleSet) (inputs : Inputs),
      StepConfig.decode step = .ok config ∧ store.ruleSet? config.ruleSetId = some ruleSet ∧
      Inputs.ofExecution? execution record.data = some inputs ∧
      output = some (decisionOutput (ruleSet.decide? inputs.get?)) := by
  rw [decisionReply] at h
  cases hconfig : (StepConfig.decode step : Except ConfigError DecisionConfig) with
  | error err =>
    rw [hconfig] at h
    exact absurd h (Reply.not_completes_failed _)
  | ok config =>
    simp only [hconfig] at h
    cases hruleSet : store.ruleSet? config.ruleSetId with
    | none =>
      rw [hruleSet] at h
      exact absurd h (Reply.not_completes_failed _)
    | some ruleSet =>
      simp only [hruleSet] at h
      cases hinputs : Inputs.ofExecution? execution record.data with
      | none =>
        rw [hinputs] at h
        exact absurd h (Reply.not_completes_error _)
      | some inputs =>
        simp only [hinputs] at h
        exact ⟨config, ruleSet, inputs, rfl, hruleSet, rfl, Reply.completes_succeeded h⟩

end Executor

namespace Engine

variable {e : Engine σ} {step : Step} {s s₁ s₂ : Session σ} {x y : Execution}

/-- Whatever a decision table has decided, the step that starts next is told, and nothing else from
this table. -/
theorem decision_handed_over (htype : step.type = .decisionTable)
    (hexecutor : e.registry.executor? .decisionTable = some Executor.decisionTable)
    (h : e.Handover step s s₁ s₂ x y) :
    ∃ (config : DecisionConfig) (ruleSet : RuleSet) (inputs inputs' : Inputs),
      StepConfig.decode step = .ok config ∧
      s.world.store.ruleSet? config.ruleSetId = some ruleSet ∧
      Inputs.ofExecution? x s.record.data = some inputs ∧
      Inputs.ofExecution? y s₂.record.data = some inputs' ∧
      inputs'.Tells (Inputs.build s₂.record.data
          (Context.ofExecutions (Context.others step.name s₂.record.executions))) step.name
        (ruleSet.decide? inputs.get?) := by
  obtain ⟨output, now, -, rfl, houtcome⟩ :=
    h.replied (htype ▸ hexecutor) Executor.decisionTable_looks
  obtain ⟨config, ruleSet, inputs, hconfig, hruleSet, hinputs, rfl⟩ :=
    Executor.decisionReply_completes houtcome
  have hothers := Context.without_ofExecutions_others step.name h.chronological
  refine ⟨config, ruleSet, inputs, _, hconfig, hruleSet, hinputs, h.inputs_eq rfl _, ?_⟩
  have htells := Inputs.tells_of_insert s₂.record.data
    (Context.ofExecutions (Context.others step.name s₂.record.executions)) step.name
    (ruleSet.decide? inputs.get?)
  rw [hothers] at htells
  exact htells

/-! ### A rating -/

namespace Rating

def rate : Step where
  id := "rate"
  name := "rating"
  type := .decisionTable
  sortOrder := 1
  configuration := some (StepConfig.encode (⟨"risk"⟩ : DecisionConfig))
  required := true
  onSuccess := none
  onFailure := none

def sign : Step := ⟨"sign", "Signature", .clientApproval, 2, none, true, none, none⟩

def template : Template := ⟨"quote", 1, "Quote", none, [rate, sign], some ⟨0⟩⟩

def rule : Rule := ⟨"\"1\"", 1, true, [], .ofList [("class.of\trisk", "\\A")]⟩

def ruleSet : RuleSet := ⟨"risk", "Risk", none, [rule]⟩

def engine : Engine Unit := ⟨.builtIn, .default⟩

/-- The case has just been started, and its rule set is in the store. -/
def unrated : Session Unit :=
  let s : Session Unit := .opened template ()
  startedAt { s with world := { s.world with store := s.world.store.saveRuleSet ruleSet } } rate

def rated : Session Unit :=
  Visit.succeededIn (.ofTemplate template) unrated rate
    (some (Executor.decisionOutput (some rule)))

theorem decide?_ruleSet (row : Row) : ruleSet.decide? row = some rule := by
  simp [RuleSet.decide?, RuleSet.tried, ruleSet, rule, Rule.matches]

theorem decode_rate : StepConfig.decode rate = .ok (⟨"risk"⟩ : DecisionConfig) :=
  StepConfig.decode_decision rfl

theorem reply_eq {store : Store} {record : CaseRecord}
    (hstore : store.ruleSet? "risk" = some ruleSet) :
    Executor.decisionReply store rate (unrated.execution rate) record =
      .result (.succeeded (Executor.decisionOutput (some rule))) := by
  have hinputs := Inputs.ofExecution?_of_shown [] (e := unrated.execution rate) rfl record.data
  simp only [Executor.decisionReply, decode_rate, hstore, hinputs, decide?_ruleSet]

theorem handover : ∃ x, engine.Handover rate unrated rated rated x (rated.execution sign) := by
  refine ⟨_, .of_success (Registry.Discreet.calm Registry.builtIn_discreet)
    (Session.launched_underway rfl) rfl Executor.decisionTable_looks ?_ _ sign ?_⟩
  · exact congrArg Reply.outcome (reply_eq rfl)
  · simp only [Visit.succeededIn_executions]
    exact (List.pairwise_singleton _ _).sublist List.filter_sublist

end Rating

open Rating in
theorem decision_handed_over_rating : ∃ inputs,
    Inputs.ofExecution? (rated.execution sign) rated.record.data = some inputs ∧
      inputs.get? "rating.matched" = some "true" ∧ inputs.get? "rating.rule_id" = some "\"1\"" ∧
      inputs.get? "rating.outputs.class.of\trisk" = some "\\A" := by
  obtain ⟨x, h⟩ := handover
  obtain ⟨config, _, inputs, inputs', hconfig, hruleSet, -, hinputs', htells⟩ :=
    decision_handed_over rfl rfl h
  obtain rfl : config = ⟨"risk"⟩ := Except.ok.inj (hconfig.symm.trans decode_rate)
  obtain rfl := Option.some.inj hruleSet
  obtain ⟨hmatched, hruleId, houtputs⟩ : inputs'.Tells _ "rating" (some rule) :=
    decide?_ruleSet inputs.get? ▸ htells
  exact ⟨inputs', hinputs', hmatched, hruleId, houtputs "class.of\trisk" "\\A" rfl⟩

end Engine

end Casework
