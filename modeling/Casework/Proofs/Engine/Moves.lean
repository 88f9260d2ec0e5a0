import Casework.Proofs.Engine.Run

/-!
# Visits, move by move

The gist of a case leaves out its ids and its times. `Yields` lists the sessions that a visit can
end in as they are: a step without an executor is skipped or the case fails, and what has come of an
executed step is the one execution that is added. A visit during which the case is cancelled is told
by `Session.brokenOff` instead, on the record that is in the store by then.
-/

namespace Casework

variable {σ : Type}

/-- The step has come to an end: its execution takes this on. -/
inductive Execution.Settles : (Execution → Time → Execution) → Prop
  | complete (output : Option String) : Settles (·.complete output)
  | fail (message : String) : Settles (·.fail message)

namespace Engine

open Work Casework.Action

namespace Visit

variable {e : Engine σ} {g : StepGraph} {step : Step} {s : Session σ}

/-- The execution of a step that is skipped. -/
def skipped (step : Step) (s : Session σ) : Execution :=
  (Execution.new (s.world.ids s.world.drawn) step).skip
    ("No executor registered for step type " ++ step.type.name) s.now

/-- What a visit comes to if nobody cancels the case meanwhile. -/
inductive Yields (e : Engine σ) (g : StepGraph) (step : Step) (s : Session σ) :
    Except EngineError Next × Session σ → Prop
  | givesUp (result : Except EngineError Next) (hover : ∀ next via, result ≠ .ok (.goOn next via))
      (message : String) : Yields e g step s (result, (s.directed (some step.id)).failed message)
  | skips : Yields e g step s (.ok (.goOn (g.nextInOrder step) false),
      ((s.drawn.ticked.extended (skipped step s)).directed (g.nextInOrder step)).saved)
  | pauses (hexecutor : e.registry.contains step.type) (output : Option String) :
      Yields e g step s (.ok .stop, pausedIn g s step (e.worldBehind step s) output)
  | goesOn (hexecutor : e.registry.contains step.type) {f : Execution → Time → Execution}
      (hf : Execution.Settles f) (next : Option String) (via : Bool) :
      Yields e g step s (.ok (.goOn next via),
        ((settledIn s step (e.worldBehind step s) f).directed next).saved)
  | fails (hexecutor : e.registry.contains step.type) (message reason : String) :
      Yields e g step s (.ok .stop,
        (settledIn s step (e.worldBehind step s) (·.fail message)).failed reason)

theorem withoutExecutor_yields (h : s.Underway) (viaFailure : Bool) :
    Yields e g step s (withoutExecutor g step viaFailure (s.directed (some step.id))) := by
  have hcalm : (s.directed (some step.id)).world.outage = none := h.calm
  have hlive : (s.directed (some step.id)).record.status.isTerminal = false := h.live
  by_cases hvia : viaFailure
  · rw [withoutExecutor, if_pos hvia, failWith_apply hcalm hlive]
    exact .givesUp (.error _) (fun _ _ h => by cases h) _
  by_cases hrequired : step.required
  · rw [withoutExecutor, if_neg hvia, if_pos hrequired, bind_of_ok (fail_apply hcalm hlive _)]
    exact .givesUp (.ok .stop) (fun _ _ h => by cases h) _
  · rw [withoutExecutor, if_neg hvia, if_neg hrequired, bind_of_ok (newId_apply _),
      bind_of_ok (now_apply _), bind_of_ok (extend_apply _ _), advance_apply _]
    · exact .skips
    · exact h.calm

theorem apply_yields (h : s.Underway) (hexecutor : e.registry.contains step.type)
    (hw : (e.worldBehind step s).outage = none) (o : Outcome) :
    Yields e g step s
      (apply g step s.record.executions.length o (calledIn s step (e.worldBehind step s))) := by
  have hcalm (f : Execution → Time → Execution) :
      (settledIn s step (e.worldBehind step s) f).world.outage = none := hw
  cases o with
  | pause output =>
    rw [apply_pause hw h.running]
    exact .pauses hexecutor output
  | success output =>
    rw [apply, bind_of_ok (settleIn_apply ..), advance_apply (hcalm _)]
    exact .goesOn hexecutor (.complete output) _ _
  | failure message =>
    rw [apply, bind_of_ok (settleIn_apply ..)]
    cases step.onFailure with
    | some target =>
      simp only [advance_apply (hcalm _)]
      exact .goesOn hexecutor (.fail message) _ _
    | none =>
      simp only
      by_cases hrequired : step.required
      · have hlive : (calledIn s step (e.worldBehind step s)).record.status.isTerminal = false :=
          h.live
        rw [if_pos hrequired, bind_of_ok (fail_apply (hcalm _) hlive _)]
        exact .fails hexecutor message _
      · rw [if_neg hrequired, advance_apply (hcalm _)]
        exact .goesOn hexecutor (.fail message) _ _

end Visit

variable {e : Engine σ} {g : StepGraph} {step : Step} {s : Session σ}

/-- Either a visit comes to one of the sessions listed, or the case was cancelled meanwhile. -/
theorem visit_yields_or_brokenOff (he : e.registry.Calm) (g : StepGraph) (step : Step)
    (h : s.Underway) (viaFailure : Bool) :
    Visit.Yields e g step s (e.visit g step viaFailure s) ∨
      ∃ r, e.registry.contains step.type ∧
        Session.CancelledAs ⟨s.record, e.worldBehind step s⟩ r ∧ e.visit g step viaFailure s =
          (.ok .stop, Session.brokenOff ⟨r, e.worldBehind step s⟩ (s.world.ids s.world.drawn)) := by
  cases hx : e.registry.executor? step.type with
  | none =>
    rw [visit, bind_of_ok (direct_apply _ s)]
    simp only [hx]
    exact .inl (Visit.withoutExecutor_yields h viaFailure)
  | some x =>
    have hexecutor := Registry.contains_of_executor? hx
    rcases Session.live_or_cancelledAs ⟨s.record, e.worldBehind step s⟩ with hlive | ⟨r, hr⟩
    · have hcalm := worldBehind_calm he h.calm step
      have hyields := Visit.apply_yields (g := g) h hexecutor hcalm
      rw [visit, bind_of_ok (direct_apply _ s)]
      rw [worldBehind_of_some hx] at hlive hcalm hyields
      simp only [hx]
      rw [Visit.withExecutor_of_live h.calm hcalm hlive]
      exact .inl (hyields _)
    · exact .inr ⟨r, hexecutor, hr, visit_of_cancelledAs he h.calm hexecutor hr viaFailure⟩

/-- Where a case goes on behind a visit, its record says with which step, and one finished execution
has been added to it. -/
theorem goOn_cases (he : e.registry.Calm) (h : s.Underway) {viaFailure via : Bool}
    {next : Option String} {s' : Session σ}
    (hvisit : e.visit g step viaFailure s = (.ok (.goOn next via), s')) :
    s'.record.currentStep = next ∧ ∃ x, s'.record.executions = s.record.executions ++ [x] ∧
      x.id = s.world.ids s.world.drawn ∧ x.status.Finished := by
  rcases visit_yields_or_brokenOff he g step h viaFailure with hyields | ⟨_, _, _, hbroken⟩
  · rw [hvisit] at hyields
    cases hyields with
    | givesUp _ hover _ => exact absurd rfl (hover next via)
    | skips => exact ⟨rfl, Visit.skipped step s, rfl, rfl, nofun, nofun⟩
    | goesOn _ hf =>
      refine ⟨rfl, _, Visit.settledIn_executions s step _ _, ?_, ?_⟩
      · cases hf <;> rfl
      · cases hf <;> exact ⟨nofun, nofun⟩
  · cases hvisit.symm.trans hbroken

theorem goOn_origin (he : e.registry.Calm) (h : s.Underway) {viaFailure via : Bool}
    {next : Option String} {s' : Session σ}
    (hvisit : e.visit g step viaFailure s = (.ok (.goOn next via), s')) :
    s'.record.origin = s.record.origin := by
  rcases visit_leads_or_brokenOff he g step h viaFailure with hleads | ⟨_, _, _, hbroken⟩
  · rw [hvisit] at hleads
    exact hleads.continues.origin
  · cases hvisit.symm.trans hbroken

end Engine

end Casework
