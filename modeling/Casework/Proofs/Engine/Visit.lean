import Casework.Proofs.Engine.Session

/-!
# What comes of a visit

What a visit makes of a case follows from what it meets: no executor for the step, or an executor
with an outcome. `Gist.visit` says so for the gist of a record, without a store and without a clock,
and `visit_leads_of_live` shows that the engine does the same, unless the case has been cancelled in
the store while the executor was at work. Executors that leave the case records and the templates
alone do not do that.
-/

namespace Casework

variable {σ : Type}

/-! ### Executors that keep to themselves -/

/-- The executor leaves the case records, the templates and the calls to the store alone. -/
structure Executor.Discreet (x : Executor σ) : Prop where
  records : ∀ step execution record w,
    (x step execution record w).2.store.records = w.store.records
  templates : ∀ step execution record w,
    (x step execution record w).2.store.templates = w.store.templates
  outage : ∀ step execution record w, (x step execution record w).2.outage = w.outage

def Registry.Discreet (reg : Registry σ) : Prop :=
  ∀ {type x}, reg.executor? type = some x → Executor.Discreet x

/-- The executor costs the engine no call to the store, whatever else it does to the world. -/
def Executor.Calm (x : Executor σ) : Prop :=
  ∀ step execution record w, w.outage = none → (x step execution record w).2.outage = none

def Registry.Calm (reg : Registry σ) : Prop :=
  ∀ {type x}, reg.executor? type = some x → Executor.Calm x

theorem Registry.Discreet.calm {reg : Registry σ} (h : reg.Discreet) : reg.Calm :=
  fun hx step execution record w hcalm => ((h hx).outage step execution record w).trans hcalm

namespace Registry

variable {reg : Registry σ} {type : StepType}

theorem exists_of_contains (h : reg.contains type) : ∃ x, reg.executor? type = some x :=
  Option.isSome_iff_exists.1 h

theorem executor?_of_not_contains (h : ¬ reg.contains type) : reg.executor? type = none := by
  simpa [contains] using h

theorem contains_of_executor? {x : Executor σ} (hx : reg.executor? type = some x) :
    reg.contains type := by
  rw [contains, hx]
  rfl

end Registry

/-! ### Visits, told by the gist -/

namespace Step

def skipped (s : Step) : Execution.Gist :=
  ⟨s.id, s.name, .skipped, none, none, some ("No executor registered for step type " ++ s.type.name)⟩

def completed (s : Step) (input : String) (output : Option String) : Execution.Gist :=
  ⟨s.id, s.name, .completed, some input, output, none⟩

def failed (s : Step) (input message : String) : Execution.Gist :=
  ⟨s.id, s.name, .failed, some input, none, some message⟩

end Step

/-- What a visit meets. -/
inductive Encounter where
  | noExecutor
  | outcome (input : String) (o : Outcome)
deriving DecidableEq, Repr

/-- The execution that is on record for an encounter, unless the case ends without one. -/
def Encounter.execution (step : Step) : Encounter → Execution.Gist
  | .noExecutor => step.skipped
  | .outcome input (.pause output) | .outcome input (.success output) => step.completed input output
  | .outcome input (.failure message) => step.failed input message

namespace CaseRecord.Gist

def failedWith (a : Gist) (message : String) : Gist :=
  { a with status := .failed, error := some message }

/-- The gist with one more execution, behind which the case goes on as told. -/
def extended (a : Gist) (e : Execution.Gist) (next : Option String) : Gist :=
  { a with currentStep := next, executions := a.executions ++ [e] }

def visit (g : StepGraph) (step : Step) (viaFailure : Bool) (a : Gist) :
    Encounter → Except EngineError Engine.Next × Gist
  | .noExecutor =>
    let a := { a with currentStep := some step.id }
    if viaFailure then
      (.error (.noExecutor step.id step.type),
        a.failedWith (EngineError.noExecutor step.id step.type).message)
    else if step.required then
      (.ok .stop, a.failedWith ("No executor registered for step type " ++ step.type.name ++
        " (step " ++ step.id ++ ")"))
    else
      (.ok (.goOn (g.nextInOrder step) false), a.extended step.skipped (g.nextInOrder step))
  | .outcome input (.pause output) =>
    (.ok .stop,
      { a.extended (step.completed input output) (g.afterSuccess step) with status := .paused })
  | .outcome input (.success output) =>
    (.ok (.goOn (g.afterSuccess step) false),
      a.extended (step.completed input output) (g.afterSuccess step))
  | .outcome input (.failure message) =>
    match step.onFailure with
    | some target =>
      (.ok (.goOn (some target) true), a.extended (step.failed input message) (some target))
    | none =>
      if step.required then
        (.ok .stop, (a.extended (step.failed input message) (some step.id)).failedWith
          ("Step " ++ step.id ++ " failed: " ++ message))
      else
        (.ok (.goOn (g.nextInOrder step) false),
          a.extended (step.failed input message) (g.nextInOrder step))

end CaseRecord.Gist

/-! ### The moves of a visit -/

namespace Session

/-- The input of an execution that starts now. -/
def input (s : Session σ) : String := (Context.ofExecutions s.record.executions).render

def execution (s : Session σ) (step : Step) : Execution :=
  (Execution.new (s.world.ids s.world.drawn) step).start s.input s.now

def begun (s : Session σ) (step : Step) : Session σ :=
  (s.drawn.ticked.extended (s.execution step)).saved

/-- The session in which the execution at the place has taken on what has come of it. -/
def settled (s : Session σ) (place : Nat) (f : Execution → Time → Execution) : Session σ :=
  { s.ticked with
    record := { s.record with executions := s.record.executions.modify place (f · s.now) } }

/-- The session in which the execution with the id, if it was still under way, has failed for the
case being cancelled. -/
def brokenOff (s : Session σ) (id : Id) : Session σ :=
  match s.record.executions.findIdx? fun e => e.id == id with
  | some place =>
    if s.record.executions[place]?.any (·.status == .running) then
      (s.settled place (·.fail "Cancelled during execution")).saved
    else s
  | none => s

/-- To break an execution off changes nothing else. -/
theorem brokenOff_cases (s : Session σ) (id : Id) :
    s.brokenOff id = s ∨ ∃ place, s.record.executions[place]?.any (·.status == .running) ∧
      s.brokenOff id = (s.settled place (·.fail "Cancelled during execution")).saved := by
  rw [brokenOff]
  cases s.record.executions.findIdx? fun e => e.id == id with
  | none => exact .inl rfl
  | some place =>
    by_cases hrunning : s.record.executions[place]?.any (·.status == .running)
    · exact .inr ⟨place, hrunning, if_pos hrunning⟩
    · exact .inl (if_neg hrunning)

theorem brokenOff_surroundings (s : Session σ) (id : Id) :
    (s.brokenOff id).world.surroundings = s.world.surroundings := by
  rcases s.brokenOff_cases id with hsame | ⟨place, -, hfailed⟩
  · rw [hsame]
  · rw [hfailed]
    rfl

/-- The later session holds the same case, with all that had been executed before, and has saved
it. -/
structure Continues (s s' : Session σ) : Prop where
  origin : s'.record.origin = s.record.origin
  executions : s.record.executions <+: s'.record.executions
  stored : s'.Stored

theorem Continues.trans {s s' s'' : Session σ} (h : s.Continues s') (h' : s'.Continues s'') :
    s.Continues s'' where
  origin := h'.origin.trans h.origin
  executions := h.executions.trans h'.executions
  stored := h'.stored

end Session

namespace Engine

/-- What the executor of a step replies and what it makes of the world. -/
def called (e : Engine σ) (step : Step) (s : Session σ) : Option (Reply × World σ) :=
  let s := s.directed (some step.id)
  (e.registry.executor? step.type).map fun x =>
    x step (s.execution step) (s.begun step).record (s.begun step).world

def encounter (e : Engine σ) (step : Step) (s : Session σ) : Encounter :=
  match e.called step s with
  | none => .noExecutor
  | some (reply, _) => .outcome s.input reply.outcome

/-- The world behind a call of the step's executor, if there is one. -/
def worldBehind (e : Engine σ) (step : Step) (s : Session σ) : World σ :=
  match e.called step s with
  | none => s.world
  | some (_, w) => w

namespace Visit

open Work Casework.Action

variable {g : StepGraph} {step : Step} {s : Session σ}

theorem advance_apply (h : s.world.outage = none) (next : Option String)
    (viaFailure : Bool) :
    advance next viaFailure s = (.ok (.goOn next viaFailure), (s.directed next).saved) := by
  have hcalm : (s.directed next).world.outage = none := h
  rw [advance, bind_of_ok (direct_apply next s), bind_of_ok (save_apply hcalm)]
  rfl

theorem begin_apply (h : s.world.outage = none) (step : Step) :
    begin step s = (.ok (s.execution step), s.begun step) := by
  rw [begin, bind_of_ok (record_apply s), bind_of_ok (newId_apply s),
    bind_of_ok (now_apply s.drawn), bind_of_ok (extend_apply _ s.drawn.ticked),
    bind_of_ok (save_apply _)]
  · rfl
  · exact h

/-- An execution begins whether or not the save of it is lost. -/
theorem begin_cases (s : Session σ) (step : Step) : ∃ outage,
    (s.world.outage = none → outage = none) ∧
      let begun := s.begun step
      let unsaved := (s.drawn.ticked.extended (s.execution step)).ticked
      (begin step s = (.ok (s.execution step), { begun with world := { begun.world with outage } }) ∨
        begin step s =
          (.error (.callLost .saveRecord), { begun with world := { unsaved.world with outage } })) := by
  rw [begin, bind_of_ok (record_apply s), bind_of_ok (newId_apply s),
    bind_of_ok (now_apply s.drawn), bind_of_ok (extend_apply _ s.drawn.ticked)]
  obtain ⟨outage, hcalm, hsaved | hlost⟩ := save_cases (s.drawn.ticked.extended (s.execution step))
  · exact ⟨outage, hcalm, .inl (bind_of_ok hsaved)⟩
  · exact ⟨outage, hcalm, .inr (bind_of_error hlost)⟩

theorem settle_apply (place : Nat) (f : Execution → Time → Execution) (s : Session σ) :
    settle place f s = (.ok (), s.settled place f) := by
  rw [settle, bind_of_ok (now_apply s)]
  rfl

/-! ### The parts of a visit -/

/-- What a part of a visit leads to: its result and the gist as told, the same case, saved, and a
world that is as given apart from the records, the clock and the ids. -/
structure Leads (s : Session σ) (surroundings : Surroundings σ)
    (told : Except EngineError Next × CaseRecord.Gist)
    (final : Except EngineError Next × Session σ) : Prop where
  result : final.1 = told.1
  gist : final.2.record.gist = told.2
  continues : s.Continues final.2
  surroundings : final.2.world.surroundings = surroundings

namespace Leads

variable {surroundings : Surroundings σ} {told : Except EngineError Next × CaseRecord.Gist}
  {final : Except EngineError Next × Session σ}

theorem templates (h : Leads s surroundings told final) :
    final.2.world.store.templates = surroundings.templates :=
  congrArg Surroundings.templates h.surroundings

theorem outage (h : Leads s surroundings told final) :
    final.2.world.outage = surroundings.outage :=
  congrArg Surroundings.outage h.surroundings

theorem memory (h : Leads s surroundings told final) :
    final.2.world.memory = surroundings.memory :=
  congrArg Surroundings.memory h.surroundings

end Leads

theorem withoutExecutor_leads (h : s.world.outage = none) (hrunning : s.record.status = .running)
    (viaFailure : Bool) :
    Leads s s.world.surroundings (s.record.gist.visit g step viaFailure .noExecutor)
      (withoutExecutor g step viaFailure (s.directed (some step.id))) := by
  have hcalm : (s.directed (some step.id)).world.outage = none := h
  have hlive : (s.directed (some step.id)).record.status.isTerminal = false := by
    rw [Session.directed_status, hrunning]
    rfl
  by_cases hvia : viaFailure
  · rw [withoutExecutor, if_pos hvia, failWith_apply hcalm hlive]
    simp only [CaseRecord.Gist.visit, if_pos hvia]
    exact ⟨rfl, rfl, ⟨rfl, List.prefix_rfl, Session.failed_stored ..⟩, rfl⟩
  by_cases hrequired : step.required
  · rw [withoutExecutor, if_neg hvia, if_pos hrequired, bind_of_ok (fail_apply hcalm hlive _)]
    simp only [CaseRecord.Gist.visit, if_neg hvia, if_pos hrequired]
    exact ⟨rfl, rfl, ⟨rfl, List.prefix_rfl, Session.failed_stored ..⟩, rfl⟩
  · rw [withoutExecutor, if_neg hvia, if_neg hrequired, bind_of_ok (newId_apply _),
      bind_of_ok (now_apply _), bind_of_ok (extend_apply _ _), advance_apply _]
    · simp only [CaseRecord.Gist.visit, if_neg hvia, if_neg hrequired]
      exact ⟨rfl, by simp [CaseRecord.Gist.extended]; rfl,
        ⟨rfl, List.prefix_append _ _, Session.saved_stored _⟩, rfl⟩
    · exact h

/-! ### Behind the call of an executor -/

theorem modify_length_append {α : Type} (l : List α) (a : α) (f : α → α) :
    (l ++ [a]).modify l.length f = l ++ [f a] := by
  induction l with
  | nil => rfl
  | cons b l ih => simpa using ih

/-- The session in which the executor has been called. -/
def calledIn (s : Session σ) (step : Step) (w : World σ) : Session σ :=
  ⟨((s.directed (some step.id)).begun step).record, w⟩

/-- The session in which the execution of the step has taken on what has come of it. -/
def settledIn (s : Session σ) (step : Step) (w : World σ) (f : Execution → Time → Execution) :
    Session σ :=
  (calledIn s step w).settled s.record.executions.length f

theorem settledIn_executions (s : Session σ) (step : Step) (w : World σ)
    (f : Execution → Time → Execution) : (settledIn s step w f).record.executions =
      s.record.executions ++ [f ((s.directed (some step.id)).execution step) (w.clock w.readings)] :=
  modify_length_append _ _ _

theorem settledIn_gist (s : Session σ) (step : Step) (w : World σ)
    (f : Execution → Time → Execution) : (settledIn s step w f).record.gist =
      s.record.gist.extended
        (f ((s.directed (some step.id)).execution step) (w.clock w.readings)).gist
        (some step.id) := by
  simp only [CaseRecord.gist, settledIn_executions, List.map_append, CaseRecord.Gist.extended]
  rfl

theorem settledIn_executions_prefix (s : Session σ) (step : Step) (w : World σ)
    (f : Execution → Time → Execution) :
    s.record.executions <+: (settledIn s step w f).record.executions := by
  rw [settledIn_executions]
  exact List.prefix_append _ _

theorem settledIn_origin (s : Session σ) (step : Step) (w : World σ)
    (f : Execution → Time → Execution) :
    (settledIn s step w f).record.origin = s.record.origin := by
  have hsettled (s : Session σ) (place : Nat) :
      (s.settled place f).record.origin = s.record.origin := rfl
  have hbegun (s : Session σ) : (s.begun step).record.origin = s.record.origin := rfl
  have hdirected (next : Option String) : (s.directed next).record.origin = s.record.origin := rfl
  exact (hsettled _ _).trans ((hbegun _).trans (hdirected _))

theorem settleIn_apply (s : Session σ) (step : Step) (w : World σ)
    (f : Execution → Time → Execution) :
    settle s.record.executions.length f (calledIn s step w) = (.ok (), settledIn s step w f) :=
  settle_apply _ _ _

/-- The session in which the case has paused behind the execution of the step. -/
def pausedIn (g : StepGraph) (s : Session σ) (step : Step) (w : World σ) (output : Option String) :
    Session σ :=
  (((settledIn s step w (·.complete output)).directed (g.afterSuccess step)).become .paused).saved

theorem pausedIn_executions (g : StepGraph) (s : Session σ) (step : Step) (w : World σ)
    (output : Option String) : (pausedIn g s step w output).record.executions =
      s.record.executions ++
        [((s.directed (some step.id)).execution step).complete output (w.clock w.readings)] :=
  settledIn_executions s step w (·.complete output)

theorem pausedIn_origin (g : StepGraph) (s : Session σ) (step : Step) (w : World σ)
    (output : Option String) : (pausedIn g s step w output).record.origin = s.record.origin := by
  have hsaved (s : Session σ) (next : Option String) :
      ((s.directed next).become .paused).saved.record.origin = s.record.origin := rfl
  exact (hsaved _ _).trans (settledIn_origin s step w _)

theorem apply_pause {w : World σ} (h : w.outage = none) (hrunning : s.record.status = .running)
    (output : Option String) :
    apply g step s.record.executions.length (.pause output) (calledIn s step w) =
      (.ok .stop, pausedIn g s step w output) := by
  have hstatus : (settledIn s step w (·.complete output)).record.status = .running := hrunning
  rw [apply, bind_of_ok (settleIn_apply ..), bind_of_ok (direct_apply ..),
    bind_of_ok (transition_apply _), bind_of_ok (save_apply _)]
  · rfl
  · exact h
  · simp [hstatus, CaseStatus.canBecome]

theorem apply_leads {w : World σ} (h : w.outage = none) (hrunning : s.record.status = .running)
    (viaFailure : Bool) (o : Outcome) :
    Leads s w.surroundings (s.record.gist.visit g step viaFailure (.outcome s.input o))
      (apply g step s.record.executions.length o (calledIn s step w)) := by
  have hcalm (f : Execution → Time → Execution) :
      (settledIn s step w f).world.outage = none := h
  have hstatus (f : Execution → Time → Execution) :
      (settledIn s step w f).record.status = .running := hrunning
  have hcontinues (f : Execution → Time → Execution) (s' : Session σ)
      (horigin : s'.record.origin = (settledIn s step w f).record.origin)
      (hexecutions : s'.record.executions = (settledIn s step w f).record.executions) :
      s.Continues s'.saved := by
    refine ⟨horigin, ?_, Session.saved_stored s'⟩
    rw [Session.saved_executions, hexecutions]
    exact settledIn_executions_prefix s step w f
  cases o with
  | pause output =>
    rw [apply_pause h hrunning]
    refine ⟨rfl, ?_, hcontinues (·.complete output) _ rfl rfl, rfl⟩
    simp only [pausedIn, Session.saved_gist, Session.become_gist, Session.directed_gist,
      settledIn_gist]
    rfl
  | success output =>
    rw [apply, bind_of_ok (settleIn_apply ..), advance_apply (hcalm _)]
    refine ⟨rfl, ?_, hcontinues (·.complete output) _ rfl rfl, rfl⟩
    simp only [Session.saved_gist, Session.directed_gist, settledIn_gist]
    rfl
  | failure message =>
    have hgist : (settledIn s step w (·.fail message)).record.gist =
        s.record.gist.extended (step.failed s.input message) (some step.id) :=
      settledIn_gist s step w (·.fail message)
    rw [apply, bind_of_ok (settleIn_apply ..)]
    cases hfailure : step.onFailure with
    | some target =>
      simp only [CaseRecord.Gist.visit, hfailure]
      rw [advance_apply (hcalm _)]
      refine ⟨rfl, ?_, hcontinues (·.fail message) _ rfl rfl, rfl⟩
      rw [Session.saved_gist, Session.directed_gist, hgist]
      rfl
    | none =>
      simp only [CaseRecord.Gist.visit, hfailure]
      by_cases hrequired : step.required
      · have hlive : (settledIn s step w (·.fail message)).record.status.isTerminal = false := by
          rw [hstatus]
          rfl
        rw [if_pos hrequired, if_pos hrequired, bind_of_ok (fail_apply (hcalm _) hlive _)]
        refine ⟨rfl, ?_, hcontinues (·.fail message) _ rfl rfl, rfl⟩
        rw [pure_apply, Session.failed_gist, hgist]
        rfl
      · rw [if_neg hrequired, if_neg hrequired, advance_apply (hcalm _)]
        refine ⟨rfl, ?_, hcontinues (·.fail message) _ rfl rfl, rfl⟩
        rw [Session.saved_gist, Session.directed_gist, hgist]
        rfl

/-- What has come of the step is applied unless the case has been cancelled meanwhile. -/
theorem withExecutor_of_live {x : Executor σ} (h : s.world.outage = none) :
    let entered := s.directed (some step.id)
    let answer := x step (entered.execution step) (entered.begun step).record
      (entered.begun step).world
    answer.2.outage = none → answer.2.store.status? s.record.id ≠ some .cancelled →
    withExecutor g step x entered =
      apply g step s.record.executions.length answer.1.outcome (calledIn s step answer.2) := by
  intro entered answer hcalm hlive
  have hentered : entered.world.outage = none := h
  have hcall : Action.sure (x step (entered.execution step) (entered.begun step).record)
      (entered.begun step) = (.ok answer.1, calledIn s step answer.2) := rfl
  rw [withExecutor, bind_of_ok (record_apply _), bind_of_ok (begin_apply hentered step),
    bind_of_ok (record_apply _), bind_of_ok hcall,
    bind_of_ok (adoptCancellation_of_live (s := calledIn s step answer.2) hcalm hlive)]
  rfl

theorem withExecutor_leads {x : Executor σ} (h : s.world.outage = none)
    (hrunning : s.record.status = .running) (viaFailure : Bool) :
    let entered := s.directed (some step.id)
    let answer := x step (entered.execution step) (entered.begun step).record
      (entered.begun step).world
    answer.2.outage = none → answer.2.store.status? s.record.id ≠ some .cancelled →
    Leads s answer.2.surroundings
      (s.record.gist.visit g step viaFailure (.outcome s.input answer.1.outcome))
      (withExecutor g step x entered) := by
  intro entered answer hcalm hlive
  rw [withExecutor_of_live h hcalm hlive]
  exact apply_leads hcalm hrunning viaFailure _

end Visit

open Work Casework.Action

theorem worldBehind_of_none {e : Engine σ} {step : Step}
    (hx : e.registry.executor? step.type = none) (s : Session σ) :
    e.worldBehind step s = s.world := by
  rw [worldBehind, called, hx]
  rfl

theorem worldBehind_of_some {e : Engine σ} {step : Step} {x : Executor σ}
    (hx : e.registry.executor? step.type = some x) (s : Session σ) :
    let begun := (s.directed (some step.id)).begun step
    e.worldBehind step s =
      (x step ((s.directed (some step.id)).execution step) begun.record begun.world).2 := by
  rw [worldBehind, called, hx]
  rfl

theorem worldBehind_calm {e : Engine σ} (he : e.registry.Calm) {s : Session σ}
    (h : s.world.outage = none) (step : Step) : (e.worldBehind step s).outage = none := by
  cases hx : e.registry.executor? step.type with
  | none =>
    rw [worldBehind_of_none hx]
    exact h
  | some x =>
    rw [worldBehind_of_some hx]
    exact he hx _ _ _ _ h

/-- What comes of a visit is told by the gist of the record and by what the visit meets, if nobody
has cancelled the case meanwhile. -/
theorem visit_leads_of_live {e : Engine σ} (he : e.registry.Calm) {g : StepGraph} {step : Step}
    {s : Session σ} (h : s.world.outage = none) (hrunning : s.record.status = .running)
    (hlive : e.registry.contains step.type →
      (e.worldBehind step s).store.status? s.record.id ≠ some .cancelled) (viaFailure : Bool) :
    Visit.Leads s (e.worldBehind step s).surroundings
      (s.record.gist.visit g step viaFailure (e.encounter step s))
      (e.visit g step viaFailure s) := by
  have hcalm := worldBehind_calm he h step
  rw [visit, bind_of_ok (direct_apply _ s)]
  cases hexecutor : e.registry.executor? step.type with
  | none =>
    simp only [worldBehind, encounter, called, hexecutor, Option.map_none]
    exact Visit.withoutExecutor_leads h hrunning viaFailure
  | some x =>
    have hlive := hlive (Registry.contains_of_executor? hexecutor)
    simp only [worldBehind, encounter, called, hexecutor, Option.map_some] at hcalm hlive ⊢
    exact Visit.withExecutor_leads h hrunning viaFailure hcalm hlive

/-- Executors that keep to themselves do not cancel the case. -/
theorem worldBehind_live {e : Engine σ} (he : e.registry.Discreet) {step : Step} {s : Session σ}
    (hrunning : s.record.status = .running) (hexecutor : e.registry.contains step.type) :
    (e.worldBehind step s).store.status? s.record.id ≠ some .cancelled := by
  obtain ⟨x, hx⟩ := Registry.exists_of_contains hexecutor
  rw [worldBehind_of_some hx]
  let begun := (s.directed (some step.id)).begun step
  have hstored : begun.Stored := Session.saved_stored _
  have hrecords := (he hx).records step ((s.directed (some step.id)).execution step)
    begun.record begun.world
  have hlive := hstored.live_of_running hrunning
  rw [Store.status?, Store.record?, ← hrecords] at hlive
  exact hlive

theorem visit_leads {e : Engine σ} (he : e.registry.Discreet) {g : StepGraph} {step : Step}
    {s : Session σ} (h : s.world.outage = none) (hrunning : s.record.status = .running)
    (viaFailure : Bool) :
    Visit.Leads s (e.worldBehind step s).surroundings
      (s.record.gist.visit g step viaFailure (e.encounter step s))
      (e.visit g step viaFailure s) :=
  visit_leads_of_live he.calm h hrunning (worldBehind_live he hrunning) viaFailure

/-! ### Visits that are broken off -/

namespace Visit

theorem breakOff_apply {s : Session σ} (h : s.world.outage = none) (execution : Execution) :
    breakOff execution s = (.ok (), s.brokenOff execution.id) := by
  rw [breakOff, bind_of_ok (record_apply s), Session.brokenOff]
  cases s.record.executions.findIdx? fun e => e.id == execution.id with
  | none => rfl
  | some place =>
    by_cases hrunning : s.record.executions[place]?.any (·.status == .running)
    · simp only [if_pos hrunning]
      rw [bind_of_ok (settle_apply ..)]
      exact save_apply h
    · simp only [if_neg hrunning]
      rfl

theorem withExecutor_of_cancelledAs {g : StepGraph} {step : Step} {s : Session σ}
    {x : Executor σ} (h : s.world.outage = none) {r : CaseRecord} :
    let entered := s.directed (some step.id)
    let answer := x step (entered.execution step) (entered.begun step).record
      (entered.begun step).world
    answer.2.outage = none → Session.CancelledAs ⟨s.record, answer.2⟩ r →
    withExecutor g step x entered =
      (.ok .stop, Session.brokenOff ⟨r, answer.2⟩ (s.world.ids s.world.drawn)) := by
  intro entered answer hcalm hr
  have hentered : entered.world.outage = none := h
  have hcall : Action.sure (x step (entered.execution step) (entered.begun step).record)
      (entered.begun step) = (.ok answer.1, calledIn s step answer.2) := rfl
  have hadopt := adoptCancellation_of_cancelledAs (s := calledIn s step answer.2) hcalm hr
  rw [withExecutor, bind_of_ok (record_apply _), bind_of_ok (begin_apply hentered step),
    bind_of_ok (record_apply _), bind_of_ok hcall, bind_of_ok hadopt]
  simp only [if_true]
  rw [bind_of_ok (breakOff_apply hcalm _)]
  rfl

end Visit

/-- The visit of a case that is cancelled meanwhile stops with the record in the store, on which the
execution of the step is broken off. -/
theorem visit_of_cancelledAs {e : Engine σ} (he : e.registry.Calm) {g : StepGraph} {step : Step}
    {s : Session σ} (h : s.world.outage = none) {r : CaseRecord}
    (hexecutor : e.registry.contains step.type)
    (hr : Session.CancelledAs ⟨s.record, e.worldBehind step s⟩ r) (viaFailure : Bool) :
    e.visit g step viaFailure s =
      (.ok .stop, Session.brokenOff ⟨r, e.worldBehind step s⟩ (s.world.ids s.world.drawn)) := by
  have hcalm := worldBehind_calm he h step
  obtain ⟨x, hx⟩ := Registry.exists_of_contains hexecutor
  rw [visit, bind_of_ok (direct_apply _ s)]
  simp only [worldBehind, called, hx, Option.map_some] at hcalm hr ⊢
  exact Visit.withExecutor_of_cancelledAs h hcalm hr

end Engine

end Casework
