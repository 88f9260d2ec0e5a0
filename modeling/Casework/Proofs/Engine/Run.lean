import Casework.Engine.Commands
import Casework.Proofs.Engine.Visit

/-!
# What comes of a run

A run is a row of visits, and each of them is told by the gist. So whatever holds of the gist at the
start of a run, and is kept by the visits, holds at its end. Starting and resuming a case come down
to a run from one session that is written down here.
-/

namespace Casework

variable {σ : Type}

namespace Session

/-- A case on its way, as a visit finds it and leaves it. -/
structure Underway (s : Session σ) : Prop where
  calm : s.world.outage = none
  running : s.record.status = .running
  stored : s.Stored

theorem Underway.live {s : Session σ} (h : s.Underway) :
    s.record.status.isTerminal = false := by
  rw [h.running]
  rfl

def completed (s : Session σ) : Session σ := ((s.directed none).become .completed).saved

@[simp] theorem completed_gist (s : Session σ) : s.completed.record.gist =
    { s.record.gist with status := .completed, currentStep := none } := rfl

theorem completed_continues (s : Session σ) : s.Continues s.completed :=
  ⟨rfl, List.prefix_rfl, saved_stored _⟩

theorem failed_continues (s : Session σ) (message : String) : s.Continues (s.failed message) :=
  ⟨rfl, List.prefix_rfl, failed_stored ..⟩

def launched (s : Session σ) : Session σ := (s.become .running).saved

theorem launched_continues (s : Session σ) : s.Continues s.launched :=
  ⟨rfl, List.prefix_rfl, saved_stored _⟩

theorem launched_underway {s : Session σ} (h : s.world.outage = none) : s.launched.Underway :=
  ⟨h, rfl, saved_stored _⟩

end Session

/-- The command does not fit the status of the case. -/
def EngineError.isRefusal : EngineError → Bool
  | .alreadyTerminal _ | .invalidTransition _ _ => true
  | _ => false

/-- What is to hold behind a visit: one thing if the case goes on, another if the run is over. -/
def Engine.Behind {τ : Type} (onTheWay : Option String → Bool → τ → Prop) (atEnd : τ → Prop) :
    Except EngineError Engine.Next × τ → Prop
  | (.ok (.goOn next viaFailure), s) => onTheWay next viaFailure s
  | (.ok .stop, s) => atEnd s
  | (.error _, s) => atEnd s

namespace Engine.Behind

variable {τ : Type} {onTheWay onTheWay' : Option String → Bool → τ → Prop} {atEnd atEnd' : τ → Prop}
  {final : Except EngineError Next × τ}

theorem imp (h : Behind onTheWay atEnd final)
    (hway : ∀ next viaFailure, onTheWay next viaFailure final.2 → onTheWay' next viaFailure final.2)
    (hover : atEnd final.2 → atEnd' final.2) : Behind onTheWay' atEnd' final := by
  match final with
  | (.error _, _) => exact hover h
  | (.ok .stop, _) => exact hover h
  | (.ok (.goOn next viaFailure), _) => exact hway next viaFailure h

theorem and (h : Behind onTheWay atEnd final) (h' : Behind onTheWay' atEnd' final) :
    Behind (fun next viaFailure s => onTheWay next viaFailure s ∧ onTheWay' next viaFailure s)
      (fun s => atEnd s ∧ atEnd' s) final := by
  match final with
  | (.error _, _) => exact ⟨h, h'⟩
  | (.ok .stop, _) => exact ⟨h, h'⟩
  | (.ok (.goOn _ _), _) => exact ⟨h, h'⟩

theorem of_forall {P : τ → Prop} (h : P final.2) : Behind (fun _ _ => P) P final := by
  match final with
  | (.error _, _) => exact h
  | (.ok .stop, _) => exact h
  | (.ok (.goOn _ _), _) => exact h

end Engine.Behind

theorem Encounter.mark_stepId (step : Step) (met : Encounter) :
    (met.execution step).mark.stepId = step.id := by
  cases met with
  | noExecutor => rfl
  | outcome input o => cases o <;> rfl

theorem Encounter.execution_finished (step : Step) (met : Encounter) :
    (met.execution step).status.Finished := by
  cases met with
  | noExecutor => exact ⟨nofun, nofun⟩
  | outcome input o => cases o <;> exact ⟨nofun, nofun⟩

namespace CaseRecord.Gist

variable {g : StepGraph} {step : Step} {viaFailure : Bool} {a : Gist}

open Engine in
/-- The case keeps running behind a visit, or else is paused or has failed. -/
theorem visit_status (met : Encounter) (hrunning : a.status = .running) :
    Behind (fun _ _ b => b.status = .running) (fun b => b.status = .paused ∨ b.status = .failed)
      (a.visit g step viaFailure met) := by
  cases met with
  | noExecutor =>
    by_cases hvia : viaFailure
    · simp [visit, hvia, Behind, failedWith]
    · by_cases hrequired : step.required
      · simp [visit, hvia, hrequired, Behind, failedWith]
      · simpa [visit, hvia, hrequired, Behind, extended] using hrunning
  | outcome input o =>
    cases o with
    | pause output => exact .inl rfl
    | success output => exact hrunning
    | failure message =>
      cases hfailure : step.onFailure with
      | some target => simpa [visit, hfailure, Behind, extended] using hrunning
      | none =>
        by_cases hrequired : step.required
        · simp [visit, hfailure, hrequired, Behind, failedWith]
        · simpa [visit, hfailure, hrequired, Behind, extended] using hrunning

/-- A visit ends with an error only for the lack of an executor, and the error is on record. -/
theorem visit_error {met : Encounter} {err : EngineError}
    (herr : (a.visit g step viaFailure met).1 = .error err) :
    err = .noExecutor step.id step.type ∧
      (a.visit g step viaFailure met).2.status = .failed ∧
      (a.visit g step viaFailure met).2.error = some err.message := by
  cases met with
  | noExecutor =>
    by_cases hvia : viaFailure
    · simp only [visit, if_pos hvia] at herr ⊢
      obtain rfl := Except.error.inj herr
      exact ⟨rfl, rfl, rfl⟩
    · by_cases hrequired : step.required
      · simp only [visit, if_neg hvia, if_pos hrequired] at herr
        cases herr
      · simp only [visit, if_neg hvia, if_neg hrequired] at herr
        cases herr
  | outcome input o =>
    cases o with
    | pause output => cases herr
    | success output => cases herr
    | failure message =>
      cases hfailure : step.onFailure with
      | some target =>
        simp only [visit, hfailure] at herr
        cases herr
      | none =>
        by_cases hrequired : step.required
        · simp only [visit, hfailure, if_pos hrequired] at herr
          cases herr
        · simp only [visit, hfailure, if_neg hrequired] at herr
          cases herr

/-- A visit adds the execution of its encounter at most. -/
theorem visit_executions (g : StepGraph) (step : Step) (viaFailure : Bool) (a : Gist)
    (met : Encounter) : (a.visit g step viaFailure met).2.executions = a.executions ∨
      (a.visit g step viaFailure met).2.executions = a.executions ++ [met.execution step] := by
  cases met with
  | noExecutor =>
    by_cases hvia : viaFailure
    · exact .inl (by simp [visit, hvia, failedWith])
    · by_cases hrequired : step.required
      · exact .inl (by simp [visit, hvia, hrequired, failedWith])
      · exact .inr (by simp [visit, hvia, hrequired, extended, Encounter.execution])
  | outcome input o =>
    refine .inr ?_
    cases o with
    | pause output => rfl
    | success output => rfl
    | failure message =>
      cases hfailure : step.onFailure with
      | some target => simp [visit, hfailure, extended, Encounter.execution]
      | none =>
        by_cases hrequired : step.required <;>
          simp [visit, hfailure, hrequired, extended, failedWith, Encounter.execution]

theorem mem_marks_of_visit {met : Encounter} {m : Execution.Mark}
    (hm : m ∈ (a.visit g step viaFailure met).2.marks) :
    m ∈ a.marks ∨ m = (met.execution step).mark := by
  rw [marks] at hm
  rcases visit_executions g step viaFailure a met with hkept | hadded
  · rw [hkept] at hm
    exact .inl hm
  · rw [hadded, List.map_append, List.mem_append, List.map_singleton, List.mem_singleton] at hm
    exact hm

/-- A visit leaves no execution waiting or under way. -/
theorem visit_allFinished (met : Encounter) (h : Execution.AllFinished a.marks) :
    Execution.AllFinished (a.visit g step viaFailure met).2.marks := by
  intro m hm
  rcases mem_marks_of_visit hm with hm | rfl
  · exact h m hm
  · exact Encounter.execution_finished step met

end CaseRecord.Gist

namespace Engine

open Work Casework.Action

variable {e : Engine σ} {g : StepGraph} {step : Step} {s : Session σ}

theorem complete_apply (h : s.world.outage = none) (hlive : s.record.status.isTerminal = false) :
    complete s = (.ok (), s.completed) := by
  have hlegal : (s.directed none).record.status.canBecome .completed = true := by
    simp [CaseStatus.canBecome, hlive]
  rw [complete, bind_of_ok (direct_apply none s), bind_of_ok (transition_apply hlegal)]
  exact save_apply h

/-! ### Executors that keep to themselves -/

theorem worldBehind_outage (he : e.registry.Discreet) (step : Step) (s : Session σ) :
    (e.worldBehind step s).outage = s.world.outage := by
  cases hx : e.registry.executor? step.type with
  | none => rw [worldBehind_of_none hx]
  | some x =>
    rw [worldBehind_of_some hx]
    exact (he hx).outage ..

theorem worldBehind_templates (he : e.registry.Discreet) (step : Step) (s : Session σ) :
    (e.worldBehind step s).store.templates = s.world.store.templates := by
  cases hx : e.registry.executor? step.type with
  | none => rw [worldBehind_of_none hx]
  | some x =>
    rw [worldBehind_of_some hx]
    exact (he hx).templates ..

/-- What is told of the gist holds of the session. -/
theorem behind_of_leads {onTheWay : Option String → Bool → CaseRecord.Gist → Prop}
    {atEnd : CaseRecord.Gist → Prop} {surroundings : Surroundings σ}
    {told : Except EngineError Next × CaseRecord.Gist}
    {final : Except EngineError Next × Session σ} (hleads : Visit.Leads s surroundings told final)
    (htold : Behind onTheWay atEnd told) :
    Behind (fun next viaFailure s => onTheWay next viaFailure s.record.gist)
      (fun s => atEnd s.record.gist) final := by
  obtain ⟨result, s'⟩ := final
  obtain ⟨told, a⟩ := told
  obtain rfl : result = told := hleads.result
  obtain rfl : s'.record.gist = a := hleads.gist
  match result with
  | .error err => exact htold
  | .ok .stop => exact htold
  | .ok (.goOn next via) => exact htold

/-- Either a visit does what is told of the gist, or the case was cancelled meanwhile. -/
theorem visit_leads_or_brokenOff (he : e.registry.Calm) (g : StepGraph) (step : Step)
    (h : s.Underway) (viaFailure : Bool) : Visit.Leads s (e.worldBehind step s).surroundings
        (s.record.gist.visit g step viaFailure (e.encounter step s))
        (e.visit g step viaFailure s) ∨
      ∃ r, e.registry.contains step.type ∧
        Session.CancelledAs ⟨s.record, e.worldBehind step s⟩ r ∧ e.visit g step viaFailure s =
          (.ok .stop, Session.brokenOff ⟨r, e.worldBehind step s⟩ (s.world.ids s.world.drawn)) := by
  rcases Session.live_or_cancelledAs ⟨s.record, e.worldBehind step s⟩ with hlive | ⟨r, hr⟩
  · exact .inl (visit_leads_of_live he h.calm h.running (fun _ => hlive) viaFailure)
  · by_cases hexecutor : e.registry.contains step.type
    · exact .inr ⟨r, hexecutor, hr, visit_of_cancelledAs he h.calm hexecutor hr viaFailure⟩
    · exact .inl (visit_leads_of_live he h.calm h.running (absurd · hexecutor) viaFailure)

/-- Whether or not the case is cancelled meanwhile, a visit does nothing to the world that its
executor has not done, apart from the records, the clock and the ids. -/
theorem visit_surroundings (he : e.registry.Calm) (g : StepGraph) (step : Step) (h : s.Underway)
    (viaFailure : Bool) : (e.visit g step viaFailure s).2.world.surroundings =
      (e.worldBehind step s).surroundings := by
  rcases visit_leads_or_brokenOff he g step h viaFailure with hleads | ⟨r, -, -, hbroken⟩
  · exact hleads.surroundings
  · rw [hbroken]
    exact Session.brokenOff_surroundings ..

/-- A visit behind which the case goes on leaves it on its way. -/
theorem visit_underway (he : e.registry.Calm) {s' : Session σ} {viaFailure via : Bool}
    {next : Option String} (h : s.Underway)
    (hvisit : e.visit g step viaFailure s = (.ok (.goOn next via), s')) : s'.Underway := by
  rcases visit_leads_or_brokenOff he g step h viaFailure with
    hleads | ⟨_, _, _, hbroken⟩
  · rw [hvisit] at hleads
    refine ⟨hleads.outage.trans (worldBehind_calm he h.calm step), ?_, hleads.continues.stored⟩
    exact behind_of_leads hleads (CaseRecord.Gist.visit_status _ h.running)
  · cases hvisit.symm.trans hbroken

/-! ### Runs, visit by visit -/

/-- What a run makes of a visit. -/
def runBehind (e : Engine σ) (g : StepGraph) (left : Nat) :
    Except EngineError Next × Session σ → Except EngineError Unit × Session σ
  | (.ok .stop, s) => (.ok (), s)
  | (.ok (.goOn none _), s) => complete s
  | (.ok (.goOn (some next) viaFailure), s) => e.runFrom g left viaFailure next s
  | (.error err, s) => (.error err, s)

theorem runFrom_of_dangling (h : s.Underway) {id : String} (hid : g.step? id = none) (left : Nat)
    (viaFailure : Bool) : e.runFrom g left viaFailure id s =
      (.error (.danglingStep id), s.failed (EngineError.danglingStep id).message) := by
  rw [runFrom, bind_of_ok (adoptCancellation_of_live h.calm (h.stored.live_of_running h.running))]
  simp only [Bool.false_eq_true, if_false, hid]
  exact failWith_apply h.calm h.live _

theorem runFrom_zero (h : s.Underway) {id : String} (hid : g.step? id = some step)
    (viaFailure : Bool) : e.runFrom g 0 viaFailure id s =
      (.error (.tooManyVisits e.config.maxVisits),
        s.failed (EngineError.tooManyVisits e.config.maxVisits).message) := by
  rw [runFrom, bind_of_ok (adoptCancellation_of_live h.calm (h.stored.live_of_running h.running))]
  simp only [Bool.false_eq_true, if_false, hid]
  exact failWith_apply h.calm h.live _

theorem runFrom_succ (h : s.Underway) {id : String} (hid : g.step? id = some step) (left : Nat)
    (viaFailure : Bool) : e.runFrom g (left + 1) viaFailure id s =
      e.runBehind g left (e.visit g step viaFailure s) := by
  rw [runFrom, bind_of_ok (adoptCancellation_of_live h.calm (h.stored.live_of_running h.running))]
  simp only [Bool.false_eq_true, if_false, hid]
  rw [bind_apply]
  rcases e.visit g step viaFailure s with ⟨_ | _ | ⟨_ | _, _⟩, s'⟩ <;> rfl

/-- What is to hold behind a visit where the end of the run is told with its result. -/
def Concludes (onTheWay : Option String → Bool → Session σ → Prop)
    (atEnd : Except EngineError Unit × Session σ → Prop) :
    Except EngineError Next × Session σ → Prop
  | (.ok (.goOn next viaFailure), s) => onTheWay next viaFailure s
  | (.ok .stop, s) => atEnd (.ok (), s)
  | (.error err, s) => atEnd (.error err, s)

theorem Behind.concludes {onTheWay : Option String → Bool → Session σ → Prop}
    {atEnd : Session σ → Prop} {final : Except EngineError Next × Session σ}
    (h : Behind onTheWay atEnd final) : Concludes onTheWay (fun final => atEnd final.2) final := by
  match final with
  | (.error _, _) => exact h
  | (.ok .stop, _) => exact h
  | (.ok (.goOn _ _), _) => exact h

/-- What each visit keeps holds at the end of a run, along with the result of the run. -/
theorem runFrom_concludes (he : e.registry.Calm)
    (onTheWay : Option String → Bool → Session σ → Prop)
    (atEnd : Except EngineError Unit × Session σ → Prop)
    (hvisit : ∀ {id step viaFailure s}, s.Underway → g.step? id = some step →
      onTheWay (some id) viaFailure s → Concludes onTheWay atEnd (e.visit g step viaFailure s))
    (hend : ∀ {viaFailure} {s : Session σ}, s.Underway → onTheWay none viaFailure s →
      atEnd (.ok (), s.completed))
    (hfail : ∀ {id viaFailure s} {err : EngineError}, err.isRefusal = false → s.Underway →
      onTheWay (some id) viaFailure s → atEnd (.error err, s.failed err.message))
    (left : Nat) {viaFailure : Bool} {id : String} (h : s.Underway)
    (hstart : onTheWay (some id) viaFailure s) :
    atEnd (e.runFrom g left viaFailure id s) := by
  induction left generalizing viaFailure id s with
  | zero =>
    cases hid : g.step? id with
    | none => rw [runFrom_of_dangling h hid]; exact hfail rfl h hstart
    | some step => rw [runFrom_zero h hid]; exact hfail rfl h hstart
  | succ left ih =>
    cases hid : g.step? id with
    | none => rw [runFrom_of_dangling h hid]; exact hfail rfl h hstart
    | some step =>
      have hconcludes := hvisit h hid hstart
      rw [runFrom_succ h hid]
      match hresult : e.visit g step viaFailure s with
      | (.error err, s') => rw [hresult] at hconcludes; exact hconcludes
      | (.ok .stop, s') => rw [hresult] at hconcludes; exact hconcludes
      | (.ok (.goOn none via), s') =>
        have hunderway := visit_underway he h hresult
        rw [hresult] at hconcludes
        rw [runBehind, complete_apply hunderway.calm hunderway.live]
        exact hend hunderway hconcludes
      | (.ok (.goOn (some next) via), s') =>
        rw [hresult] at hconcludes
        exact ih (visit_underway he h hresult) hconcludes

/-- What each visit keeps holds at the end of a run. -/
theorem runFrom_rule (he : e.registry.Calm)
    (onTheWay : Option String → Bool → Session σ → Prop) (atEnd : Session σ → Prop)
    (hvisit : ∀ {id step viaFailure s}, s.Underway → g.step? id = some step →
      onTheWay (some id) viaFailure s → Behind onTheWay atEnd (e.visit g step viaFailure s))
    (hend : ∀ {viaFailure} {s : Session σ}, s.Underway → onTheWay none viaFailure s →
      atEnd s.completed)
    (hfail : ∀ {id viaFailure s} message, s.Underway → onTheWay (some id) viaFailure s →
      atEnd (s.failed message))
    (left : Nat) {viaFailure : Bool} {id : String} (h : s.Underway)
    (hstart : onTheWay (some id) viaFailure s) :
    atEnd (e.runFrom g left viaFailure id s).2 :=
  runFrom_concludes he onTheWay (fun final => atEnd final.2)
    (fun h hid hway => (hvisit h hid hway).concludes) hend (fun _ => hfail _) left h hstart

/-- A run holds on to the case and to all that had been executed before. -/
theorem runFrom_continues (he : e.registry.Discreet) (left : Nat) (viaFailure : Bool) (id : String)
    (h : s.Underway) : s.Continues (e.runFrom g left viaFailure id s).2 := by
  refine runFrom_rule he.calm (fun _ _ s' => s.Continues s') s.Continues ?_ ?_ ?_ left h
    ⟨rfl, List.prefix_rfl, h.stored⟩
  · intro id step viaFailure s' h' _ hcontinues
    have hleads := @visit_leads σ e he g step s' h'.calm h'.running viaFailure
    match hresult : e.visit g step viaFailure s' with
    | (.error _, _) | (.ok .stop, _) | (.ok (.goOn _ _), _) =>
      rw [hresult] at hleads
      exact hcontinues.trans hleads.continues
  · exact fun _ hcontinues => hcontinues.trans (Session.completed_continues _)
  · exact fun message _ hcontinues => hcontinues.trans (Session.failed_continues _ message)

end Engine

end Casework
