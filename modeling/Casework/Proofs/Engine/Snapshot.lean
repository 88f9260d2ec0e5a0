import Casework.Proofs.Engine.Lifetime
import Casework.Proofs.Engine.Walk

/-!
# What the steps of a case have been shown

The input of an execution is the context as it was when the step began. It is on record as a text, so
it might say something else than the history in front of it, once outputs are amended and executions
that were interrupted are given up. It never does: the context looks at completed executions only, an
execution that is given up was not one of these, and a task amends the last execution, behind which no
step has begun.
-/

namespace Casework

variable {σ : Type}

/-- What was interrupted has not been completed. -/
theorem Execution.completed_of_matures {es es' : List Execution} (h : es.Forall₂ Matures es') :
    es'.filter (·.status == .completed) = es.filter (·.status == .completed) := by
  induction h with
  | nil => rfl
  | cons hmatures _ ih =>
    cases hmatures with
    | kept => rw [List.filter_cons, List.filter_cons, ih]
    | failed hrunning message now =>
      rw [List.filter_cons_of_neg (by simp [Execution.fail]),
        List.filter_cons_of_neg (by simp [hrunning]), ih]

/-- A context tells of completed executions only. -/
theorem Context.ofExecutions_of_completed {es es' : List Execution}
    (h : es'.filter (·.status == .completed) = es.filter (·.status == .completed)) :
    ofExecutions es' = ofExecutions es := by
  rw [ofExecutions, outputs, h, ofExecutions, outputs]

/-- An execution that has failed says as little as one that is under way. -/
theorem Context.ofExecutions_of_matures {es es' : List Execution}
    (h : es.Forall₂ Execution.Matures es') : ofExecutions es' = ofExecutions es :=
  ofExecutions_of_completed (Execution.completed_of_matures h)

namespace Execution

/-- Each step that was run has been shown the context of the executions before it. -/
def Traceable (es : List Execution) : Prop :=
  ∀ (i : Nat) (x : Execution), es[i]? = some x → x.status ≠ .skipped →
    x.input = some (Context.ofExecutions (es.take i)).render

theorem Matures.input_eq {x y : Execution} (h : x.Matures y) : y.input = x.input := by
  cases h <;> rfl

theorem Matures.not_skipped {x y : Execution} (h : x.Matures y) (hy : y.status ≠ .skipped) :
    x.status ≠ .skipped := by
  cases h with
  | kept => exact hy
  | failed hrunning => exact fun hskipped => nomatch hrunning.symm.trans hskipped

namespace Traceable

variable {es es' : List Execution} {x : Execution}

theorem nil : Traceable [] := fun _ _ hx => nomatch hx

theorem concat_iff : Traceable (es ++ [x]) ↔ Traceable es ∧
    (x.status ≠ .skipped → x.input = some (Context.ofExecutions es).render) := by
  constructor
  · intro h
    constructor
    · intro i y hy hrun
      obtain ⟨hi, -⟩ := List.getElem?_eq_some_iff.1 hy
      rw [← List.take_append_of_le_length (Nat.le_of_lt hi)]
      exact h i y (by rw [List.getElem?_append_left hi, hy]) hrun
    · intro hrun
      have hlast := h es.length x List.getElem?_concat_length hrun
      rwa [List.take_left] at hlast
  · rintro ⟨h, hx⟩ i y hy hrun
    rcases Nat.lt_trichotomy i es.length with hi | rfl | hi
    · rw [List.getElem?_append_left hi] at hy
      rw [List.take_append_of_le_length (Nat.le_of_lt hi)]
      exact h i y hy hrun
    · rw [List.getElem?_concat_length] at hy
      obtain rfl := Option.some.inj hy
      rw [List.take_left]
      exact hx hrun
    · have hlength : (es ++ [x]).length ≤ i := List.length_append.trans_le hi
      rw [List.getElem?_eq_none hlength] at hy
      exact nomatch hy

theorem matures (h : Traceable es) (hmatures : es.Forall₂ Matures es') : Traceable es' := by
  intro i y hy hrun
  obtain ⟨hi, rfl⟩ := List.getElem?_eq_some_iff.1 hy
  have hi' : i < es.length := hmatures.length_eq ▸ hi
  have hxy : es[i].Matures es'[i] := hmatures.get hi' hi
  rw [hxy.input_eq, Context.ofExecutions_of_matures (List.forall₂_take i hmatures)]
  exact h i es[i] (List.getElem?_eq_getElem hi') (hxy.not_skipped hrun)

/-- No step has been shown the output of the last execution. -/
theorem withLastOutput (h : Traceable es) (output : Option String) :
    Traceable (es.modify (es.length - 1) ({ · with output })) := by
  rcases List.eq_nil_or_concat' es with rfl | ⟨before, x, rfl⟩
  · exact h
  · obtain ⟨hbefore, hx⟩ := concat_iff.1 h
    rw [List.length_append, List.length_singleton, Nat.add_sub_cancel,
      Engine.Visit.modify_length_append]
    exact concat_iff.2 ⟨hbefore, hx⟩

end Traceable

theorem inputs_of_forall₂ {es es' : List Execution} (h : es.Forall₂ Matures es') :
    es'.map (·.input) = es.map (·.input) := by
  induction h with
  | nil => rfl
  | cons hxy _ ih => rw [List.map_cons, List.map_cons, hxy.input_eq, ih]

end Execution

namespace CaseRecord

/-- The inputs begin with the given ones, and each can be traced. -/
structure Traces (inputs : List (Option String)) (r : CaseRecord) : Prop where
  inputs : inputs <+: r.executions.map (·.input)
  traceable : Execution.Traceable r.executions

namespace Traces

variable {inputs : List (Option String)} {r r' : CaseRecord} {x : Execution}

theorem of_eq (h : r.Traces inputs) (hexecutions : r'.executions = r.executions) :
    r'.Traces inputs :=
  ⟨hexecutions ▸ h.inputs, hexecutions ▸ h.traceable⟩

theorem append (h : r.Traces inputs)
    (hx : x.status = .skipped ∨ x.input = some (Context.ofExecutions r.executions).render) :
    Traces inputs { r with executions := r.executions ++ [x] } where
  inputs := by
    rw [List.map_append]
    exact h.inputs.trans (List.prefix_append _ _)
  traceable := Execution.Traceable.concat_iff.2 ⟨h.traceable, hx.resolve_left⟩

theorem matures (h : r.Traces inputs) {executions : List Execution}
    (hmatures : r.executions.Forall₂ Execution.Matures executions) :
    Traces inputs { r with executions } where
  inputs := by
    rw [Execution.inputs_of_forall₂ hmatures]
    exact h.inputs
  traceable := h.traceable.matures hmatures

theorem withLastOutput (h : r.Traces inputs) (output : Option String) :
    (r.withLastOutput output).Traces inputs where
  inputs := by
    have hsame : (r.withLastOutput output).executions.map (·.input) =
        r.executions.map (·.input) := by
      refine List.ext_getElem? fun i => ?_
      rw [CaseRecord.withLastOutput, List.getElem?_map, List.getElem?_map, List.getElem?_modify]
      cases r.executions[i]? with
      | none => rfl
      | some x => by_cases hi : r.executions.length - 1 = i <;> simp [hi]
    rw [hsame]
    exact h.inputs
  traceable := h.traceable.withLastOutput output

end Traces

end CaseRecord

namespace Engine

open Casework.Action

variable {e : Engine σ} {id : Id} {inputs : List (Option String)} {w : World σ} {r : CaseRecord}

theorem upkeep_traces (he : e.registry.Spares id) (inputs : List (Option String)) :
    Upkeep e (fun _ => True) (Session.Both id (CaseRecord.Traces inputs)) where
  ticked h := h.spared ⟨rfl, Nat.le_refl _, .inl rfl⟩ fun _ _ _ h => h.of_eq rfl
  asked h _ := h.spared ⟨rfl, Nat.le_refl _, .inl rfl⟩ fun _ _ _ h => h.of_eq rfl
  found _ _ := trivial
  turned h horigin hexecutions _ :=
    h.with_record (CaseRecord.id_eq_of_origin horigin) (h.record.of_eq hexecutions)
  directed h _ _ := h.with_record rfl (h.record.of_eq rfl)
  saved h := h.with_saved
  adopted h hr := h.adopted hr
  extended h _ hx := ⟨h.stored, h.id, h.record.append hx⟩
  matured h hmatures := h.with_record rfl (h.record.matures hmatures)
  called _ h' hx := h'.spared (he hx _ _ _ _) fun _ _ _ h => h.of_eq rfl
  settled h h' _ _ hinput := ⟨h'.stored, h'.id, (h.record.append (.inr hinput)).of_eq rfl⟩

theorem Operation.Readies.traces {op : Operation} {r' : CaseRecord} (h : op.Readies r r')
    (hdistinct : (r.executions.map (·.id)).Nodup) (hr : r.Traces inputs) : r'.Traces inputs := by
  cases op with
  | complete taskId resolution =>
    obtain ⟨-, task, hlast, rfl⟩ := h
    obtain ⟨output, hamend⟩ := amend_eq_modify hdistinct hlast
    exact (hr.withLastOutput output).of_eq hamend
  | start | resume | cancel =>
    obtain rfl : r' = r := h
    exact hr

/-- Whichever operation comes next, it adds to what can be traced. -/
theorem Operation.keeps_traces (he : e.registry.Spares id) (op : Operation)
    (hop : op.Concerns id w) (hr : w.store.record? id = some r)
    (hdistinct : (r.executions.map (·.id)).Nodup) (htraces : r.Traces inputs) :
    ∃ r', (op.run e id w).2.store.record? id = some r' ∧ r'.Traces inputs := by
  rcases op.spares_or_runs (e := e) hop with hspares | ⟨r', s, command, hruns⟩
  · have hnow : Session.Both id (CaseRecord.Traces inputs) ⟨r, w⟩ :=
      ⟨⟨r, hr, htraces⟩, Register.key_of_find? hr, htraces⟩
    exact (hnow.spared hspares fun _ _ _ h => h.of_eq rfl).stored
  · obtain rfl : r' = r := Option.some.inj (hruns.stored.symm.trans hr)
    have hready := hruns.readied.traces hdistinct htraces
    have hnow : s.Both id (CaseRecord.Traces inputs) :=
      ⟨⟨s.record, hruns.saved, hready⟩, Register.key_of_find? hruns.saved, hready⟩
    have hkeeps := (upkeep_traces he inputs).upholds_command (.any _ _) command s hnow
    rw [hruns.result]
    exact hkeeps.property.stored

theorem Reaches.traces {r₀ : CaseRecord} {w₀ : World σ} {held : List CaseRecord}
    (h : e.Reaches r₀ w₀ w held) (hids : Function.Injective w₀.ids) (he : e.registry.Spares r₀.id)
    (hstored : w₀.store.record? r₀.id = some r₀) (hnew : r₀.executions = []) :
    (∃ r, w.store.record? r₀.id = some r ∧ r.Traces []) ∧ ∀ r ∈ held, r.Traces [] := by
  induction h with
  | opened =>
    have htraces : r₀.Traces [] := by
      refine ⟨List.nil_prefix, ?_⟩
      rw [hnew]
      exact .nil
    exact ⟨⟨r₀, hstored, htraces⟩, by simpa using htraces⟩
  | @load w held r h hr ih =>
    obtain ⟨⟨r', hr', htraces⟩, hheld⟩ := ih
    obtain rfl : r' = r := Option.some.inj (hr'.symm.trans hr)
    exact ⟨⟨r', hr', htraces⟩, List.forall_mem_cons.2 ⟨htraces, hheld⟩⟩
  | @command w held r h hr command ih =>
    obtain ⟨hstored, hheld⟩ := ih
    have hid : r.id = r₀.id := ((h.sound hids he ‹_› hnew).held r hr).id
    have hnow : Session.Both r₀.id (CaseRecord.Traces []) ⟨r, w⟩ := ⟨hstored, hid, hheld r hr⟩
    have hkeeps := (upkeep_traces he []).upholds_command (.any _ _) command _ hnow
    exact ⟨hkeeps.property.stored, List.forall_mem_cons.2 ⟨hkeeps.property.record, hheld⟩⟩
  | @operate w held h op hop ih =>
    obtain ⟨⟨r, hr, htraces⟩, hheld⟩ := ih
    have hdistinct := ((h.sound hids he hstored hnew).of_record? hr).distinct
    exact ⟨op.keeps_traces he hop hr hdistinct htraces, hheld⟩
  | @meanwhile w w' held h hw ih =>
    obtain ⟨⟨r, hr, htraces⟩, hheld⟩ := ih
    have hnow : Session.Both r₀.id (CaseRecord.Traces []) ⟨r, w⟩ :=
      ⟨⟨r, hr, htraces⟩, Register.key_of_find? hr, htraces⟩
    exact ⟨(hnow.spared hw fun _ _ _ h => h.of_eq rfl).stored, hheld⟩

/-- Whatever has been done with a case since it was opened, each step that was run has been shown the
context of the executions that are in front of it now, and no operation changes what it has been
shown. -/
theorem executions_traceable {caseId templateId : String} {version : Option Nat}
    {data : Dictionary String} {w₀ w₁ : World σ} {r₀ : CaseRecord} {held : List CaseRecord}
    (hopen : openCase caseId templateId version data w₀ = (.ok r₀, w₁))
    (hids : Function.Injective w₁.ids) (he : e.registry.Spares r₀.id)
    (hreach : e.Reaches r₀ w₁ w held) :
    ∃ r, w.store.record? r₀.id = some r ∧ Execution.Traceable r.executions ∧
      ∀ op : Operation, op.Concerns r₀.id w →
        ∃ r', (op.run e r₀.id w).2.store.record? r₀.id = some r' ∧
          r.executions.map (·.input) <+: r'.executions.map (·.input) := by
  obtain ⟨hstored, hnew⟩ := openCase_stored hopen
  obtain ⟨⟨r, hr, htraces⟩, -⟩ := hreach.traces hids he hstored hnew
  refine ⟨r, hr, htraces.traceable, fun op hop => ?_⟩
  have hdistinct := ((hreach.sound hids he hstored hnew).of_record? hr).distinct
  have hinputs : r.Traces (r.executions.map (·.input)) := ⟨List.prefix_rfl, htraces.traceable⟩
  obtain ⟨r', hr', htraces'⟩ := op.keeps_traces he hop hr hdistinct hinputs
  exact ⟨r', hr', htraces'.inputs⟩

open Notice in
theorem executions_traceable_notice : ∃ r, worldApproved.store.record? opened.id = some r ∧
    Execution.Traceable r.executions ∧ ∀ op : Operation, op.Concerns opened.id worldApproved →
      ∃ r', (op.run engine opened.id worldApproved).2.store.record? opened.id = some r' ∧
        r.executions.map (·.input) <+: r'.executions.map (·.input) := by
  have hopen : openCase "case" "notice" none .empty world = (.ok opened, worldOpened) := rfl
  have hstarted : engine.Reaches opened worldOpened worldStarted [opened] :=
    Reaches.opened.operate .start trivial
  have happroved : engine.Reaches opened worldOpened worldApproved [opened] :=
    hstarted.operate (.complete ⟨3⟩ ⟨false, none, none⟩) fun _ htask => recordId_of_task htask
  exact executions_traceable hopen ids_injective (Registry.builtIn_spares _) happroved

end Engine

end Casework
