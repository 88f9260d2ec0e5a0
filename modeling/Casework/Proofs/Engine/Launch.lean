import Casework.Proofs.Engine.History
import Casework.Proofs.Engine.Run
import Casework.Proofs.Template.Links
import Mathlib.Data.List.Forall2

/-!
# Opening, starting, resuming and cancelling a case, and completing its tasks

A case is opened as a new record in the store. To start it is to run it from the first step, and to
resume it is to run it from the step that it is to go on with; without such a step it is complete.
Both look up the template first, and a case whose template is missing or invalid fails. `Course`
lists what can come of the two, whatever the record is like, unless its status forbids them. To
complete a task is to put its resolution into the last execution of the case and to resume it.
-/

namespace Casework

variable {σ : Type}

/-- There is no such task or case, or the task is not one to be resolved now. -/
def EngineError.deniesTask : EngineError → Bool
  | .taskNotFound _ | .taskAlreadyResolved _ | .recordNotFound _ | .alreadyTerminal _
  | .taskNotAwaited _ => true
  | _ => false

/-- The template is not there, is not valid, or has no such step. -/
def EngineError.blamesTemplate : EngineError → Bool
  | .templateNotFound _ _ | .invalidTemplate _ | .danglingStep _ => true
  | _ => false

theorem EngineError.not_isRefusal_of_blamesTemplate {err : EngineError} (h : err.blamesTemplate) :
    err.isRefusal = false := by
  cases err <;> first | rfl | cases h

/-- The template that the record is bound to, if it is there and valid. -/
def Session.Bound (s : Session σ) (t : Template) : Prop :=
  s.world.store.template? s.record.templateId s.record.templateVersion = some t ∧
    t.validate = .ok ()

theorem Session.Bound.of_origin {s s' : Session σ} {t : Template} (h : s.Bound t)
    (horigin : s'.record.origin = s.record.origin)
    (htemplates : s'.world.store.templates = s.world.store.templates) : s'.Bound t := by
  rw [Bound, Store.template?, htemplates, CaseRecord.templateId_eq_of_origin horigin,
    CaseRecord.templateVersion_eq_of_origin horigin]
  exact h

/-- A case as it has been opened: nothing has come of it yet. -/
structure Session.Fresh (s : Session σ) (t : Template) (data : Dictionary String) : Prop where
  calm : s.world.outage = none
  template : s.world.store.template? s.record.templateId s.record.templateVersion = some t
  stored : s.Stored
  gist : s.record.gist = ⟨.notStarted, none, none, []⟩
  data : s.record.data = data

namespace Session.Fresh

variable {s : Session σ} {t : Template} {data : Dictionary String}

theorem status (h : s.Fresh t data) : s.record.status = .notStarted :=
  congrArg CaseRecord.Gist.status h.gist

theorem executions (h : s.Fresh t data) : s.record.executions = [] :=
  List.map_eq_nil_iff.1 (congrArg CaseRecord.Gist.executions h.gist)

theorem marks (h : s.Fresh t data) : s.record.gist.marks = [] :=
  congrArg CaseRecord.Gist.marks h.gist

end Session.Fresh

/-- A case that has just been opened, in a world with nothing but its template. The clock counts how
often it is read, and ids are numbers as well. -/
def Session.opened (t : Template) (memory : σ) : Session σ :=
  let r : CaseRecord := .new ⟨0⟩ "case" t .empty ⟨0⟩
  let store := { Store.empty with templates := Register.empty.insert t }
  { record := r
    world :=
      { store := store.saveRecord r, clock n := ⟨n⟩, readings := 1, ids n := ⟨n⟩, drawn := 1
        outage := none, memory } }

theorem Session.opened_fresh (t : Template) (memory : σ) :
    (opened t memory).Fresh t .empty where
  calm := rfl
  template := (Register.find?_insert _ _ _).trans (if_pos rfl)
  stored := Store.record?_saveRecord_self _ _
  gist := rfl
  data := rfl

namespace Engine

open Work Casework.Action

variable {e : Engine σ} {s : Session σ} {t : Template}

/-! ### Opening -/

theorem openCase_new_of_version {w w' : World σ} {caseId templateId : String} {version : Nat}
    {data : Dictionary String} {r : CaseRecord}
    (hopen : openCase caseId templateId (some version) data w = (.ok r, w')) :
    w'.store.record? r.id = some r ∧ ∃ id t now, r = .new id caseId t data now := by
  rw [openCase] at hopen
  obtain ⟨version, w₁, -, hopen⟩ := ok_of_bind hopen
  obtain ⟨found, w₂, -, hopen⟩ := ok_of_bind hopen
  cases found with
  | none => exact nomatch hopen
  | some t =>
    obtain ⟨now, w₃, -, hopen⟩ := ok_of_bind hopen
    obtain ⟨id, w₄, -, hopen⟩ := ok_of_bind hopen
    obtain ⟨⟨⟩, w₅, hsave, hopen⟩ := ok_of_bind hopen
    obtain ⟨outage, -, hsaved | hlost⟩ :=
      Attempt.saveRecord_cases (CaseRecord.new id caseId t data now) w₄
    · obtain ⟨-, rfl⟩ := Prod.mk.inj (hsaved.symm.trans hsave)
      obtain ⟨hr, rfl⟩ := Prod.mk.inj hopen
      obtain rfl := Except.ok.inj hr
      exact ⟨Store.record?_saveRecord_self _ _, id, t, now, rfl⟩
    · cases hlost.symm.trans hsave

/-- A case that has been opened is in the store as a new record. -/
theorem openCase_new {w w' : World σ} {caseId templateId : String} {version : Option Nat}
    {data : Dictionary String} {r : CaseRecord}
    (hopen : openCase caseId templateId version data w = (.ok r, w')) :
    w'.store.record? r.id = some r ∧ ∃ id t now, r = .new id caseId t data now := by
  cases version with
  | some version => exact openCase_new_of_version hopen
  | none =>
    rw [openCase] at hopen
    obtain ⟨found, w₁, -, hopen⟩ := ok_of_bind hopen
    cases found with
    | none => exact nomatch hopen
    | some version => exact openCase_new_of_version hopen

theorem openCase_stored {w w' : World σ} {caseId templateId : String} {version : Option Nat}
    {data : Dictionary String} {r : CaseRecord}
    (hopen : openCase caseId templateId version data w = (.ok r, w')) :
    w'.store.record? r.id = some r ∧ r.executions = [] := by
  obtain ⟨hstored, _, _, _, rfl⟩ := openCase_new hopen
  exact ⟨hstored, rfl⟩

/-- The world in which a record has just been opened. -/
def opening (w : World σ) (r : CaseRecord) : World σ :=
  { w with
    readings := w.readings + 1
    drawn := w.drawn + 1
    store := w.store.saveRecord r }

theorem openCase_cases_of_version {w : World σ} (h : w.outage = none)
    (caseId templateId : String) (version : Nat) (data : Dictionary String) :
    (∃ err, openCase caseId templateId (some version) data w = (.error err, w)) ∨
      ∃ t, w.store.template? t.id t.version = some t ∧
        let r := CaseRecord.new (w.ids w.drawn) caseId t data (w.clock w.readings)
        openCase caseId templateId (some version) data w = (.ok r, opening w r) := by
  have hask := Attempt.ask_of_no_outage h .loadTemplate (·.template? templateId version)
  rw [openCase]
  simp only [Attempt.template?]
  rw [bind_of_ok (pure_apply _ _), bind_of_ok hask]
  cases ht : w.store.template? templateId version with
  | none => exact .inl ⟨_, rfl⟩
  | some t =>
    obtain ⟨rfl, rfl⟩ := Store.key_of_template? ht
    let ticked : World σ := { w with readings := w.readings + 1 }
    let drawn : World σ := { ticked with drawn := w.drawn + 1 }
    have hnow : Attempt.sure World.now w = (.ok (w.clock w.readings), ticked) := rfl
    have hid : Attempt.sure World.newId ticked = (.ok (w.ids w.drawn), drawn) := rfl
    have hsave := Attempt.saveRecord_of_no_outage (w := drawn) h
      (CaseRecord.new (w.ids w.drawn) caseId t data (w.clock w.readings))
    refine .inr ⟨t, ht, ?_⟩
    simp only
    rw [bind_of_ok hnow, bind_of_ok hid, bind_of_ok hsave]
    rfl

/-- Whoever opens a case, on a version or on the latest one, gets a record with a new id on which
nothing has been done, or else nothing happens. -/
theorem openCase_cases {w : World σ} (h : w.outage = none) (caseId templateId : String)
    (version : Option Nat) (data : Dictionary String) :
    (∃ err, openCase caseId templateId version data w = (.error err, w)) ∨
      ∃ t, w.store.template? t.id t.version = some t ∧
        let r := CaseRecord.new (w.ids w.drawn) caseId t data (w.clock w.readings)
        openCase caseId templateId version data w = (.ok r, opening w r) := by
  cases version with
  | some version => exact openCase_cases_of_version h caseId templateId version data
  | none =>
    have hask := Attempt.ask_of_no_outage h .latestVersion (·.latestVersion? templateId)
    rw [openCase]
    simp only [Attempt.latestVersion?]
    rw [bind_of_ok hask]
    cases hv : w.store.latestVersion? templateId with
    | none => exact .inl ⟨_, rfl⟩
    | some version => exact openCase_cases_of_version h caseId templateId version data

theorem openCase_fresh {w w' : World σ} (h : w.outage = none) {caseId templateId : String}
    {version : Option Nat} {data : Dictionary String} {r : CaseRecord}
    (hopen : openCase caseId templateId version data w = (.ok r, w')) :
    ∃ t, Session.Fresh ⟨r, w'⟩ t data ∧ w'.surroundings = w.surroundings := by
  rcases openCase_cases h caseId templateId version data with ⟨err, hfailed⟩ | ⟨t, ht, hopened⟩
  · cases hfailed.symm.trans hopen
  · obtain ⟨hr, rfl⟩ := Prod.mk.inj (hopened.symm.trans hopen)
    obtain rfl := Except.ok.inj hr
    exact ⟨t, ⟨h, ht, Store.record?_saveRecord_self _ _, rfl, rfl⟩, rfl⟩

/-! ### Starting and resuming -/

theorem template_apply (h : s.world.outage = none) (ht : s.Bound t) :
    template s = (.ok t, s) := by
  have hask := ofAttempt_of_ok (s := s) (Attempt.ask_of_no_outage h .loadTemplate
    (·.template? s.record.templateId s.record.templateVersion))
  rw [template, bind_of_ok (record_apply s)]
  simp only [Attempt.template?]
  rw [bind_of_ok hask, ht.1]
  simp only [ht.2]
  rfl

/-- The session of a case that starts from a step. -/
def startedAt (s : Session σ) (first : Step) : Session σ := (s.directed (some first.id)).launched

/-- A start of a template that the store yields, whatever call to it is lost later. -/
theorem start_of_template (hnew : s.record.status = .notStarted) {s' : Session σ}
    (htemplate : template s = (.ok t, s')) : e.start s =
      (match t.ordered with
      | [] => complete
      | first :: _ => (do
        update ({ · with currentStep := some first.id })
        transition .running
        save
        e.run t first.id : Action σ Unit)) s' := by
  rw [start, bind_of_ok (record_apply s)]
  simp only [hnew, ne_eq, not_true_eq_false, if_false, CaseStatus.isTerminal, Bool.false_eq_true]
  exact bind_of_ok htemplate

theorem start_apply (h : s.world.outage = none) (hnew : s.record.status = .notStarted)
    (ht : s.Bound t) : e.start s =
      match t.ordered with
      | [] => (.ok (), s.completed)
      | first :: _ => e.run t first.id (startedAt s first) := by
  have hlive : s.record.status.isTerminal = false := by rw [hnew]; rfl
  rw [start_of_template hnew (template_apply h ht)]
  cases t.ordered with
  | nil => exact complete_apply h hlive
  | cons first others =>
    have hlegal : (s.directed (some first.id)).record.status.canBecome .running = true := by
      simp [hnew, CaseStatus.canBecome]
    have hcalm : ((s.directed (some first.id)).become .running).world.outage = none := h
    dsimp only
    rw [bind_of_ok (direct_apply _ s), bind_of_ok (transition_apply hlegal),
      bind_of_ok (save_apply hcalm)]
    rfl

theorem run_eq_runFrom {ss : List Step} (hordered : t.ordered = ss) (id : String) :
    e.run t id = e.runFrom ⟨ss⟩ e.config.maxVisits false id := by
  rw [run, StepGraph.ofTemplate, hordered]

theorem start_eq_runFrom (h : s.world.outage = none) (hnew : s.record.status = .notStarted)
    (ht : s.Bound t) {first : Step} {others : List Step} (hordered : t.ordered = first :: others) :
    e.start s =
      e.runFrom ⟨first :: others⟩ e.config.maxVisits false first.id (startedAt s first) := by
  rw [start_apply h hnew ht, ← run_eq_runFrom hordered, hordered]

/-- A case starts once only. -/
theorem start_of_started (h : s.record.status ≠ .notStarted) : (e.start s).2 = s := by
  rw [start, bind_of_ok (record_apply s)]
  by_cases hterminal : s.record.status.isTerminal
  · simp only [if_pos hterminal]
    rfl
  · simp only [if_neg hterminal, if_pos h]
    rfl

/-- A case that neither runs nor is paused is not resumed. -/
theorem resume_of_not_paused (hrunning : s.record.status ≠ .running)
    (hpaused : s.record.status ≠ .paused) : (e.resume s).2 = s := by
  rw [resume, bind_of_ok (record_apply s)]
  cases hstatus : s.record.status with
  | running => exact absurd hstatus hrunning
  | paused => exact absurd hstatus hpaused
  | notStarted | completed | failed | cancelled => rfl

/-- Executions that were under way have failed, and the clock has been read for each. -/
theorem settleInterrupted_apply (es : List Execution) (s : Session σ) : ∃ es' readings,
    settleInterrupted es s = (.ok es', { s with world := { s.world with readings } }) ∧
      es.Forall₂ Execution.Matures es' ∧ ∀ x ∈ es', x.status ≠ .running := by
  induction es generalizing s with
  | nil => exact ⟨[], s.world.readings, rfl, .nil, nofun⟩
  | cons x es ih =>
    by_cases hx : x.status = .running
    · obtain ⟨es', readings, hes, hmatures, hsettled⟩ := ih s.ticked
      let x' := x.fail "Interrupted before completion" s.now
      refine ⟨x' :: es', readings, ?_, .cons (.failed hx _ _) hmatures, ?_⟩
      · rw [settleInterrupted, if_pos hx, bind_of_ok (now_apply s), bind_of_ok hes]
        rfl
      · exact List.forall_mem_cons.2 ⟨nofun, hsettled⟩
    · obtain ⟨es', readings, hes, hmatures, hsettled⟩ := ih s
      refine ⟨x :: es', readings, ?_, .cons .kept hmatures, ?_⟩
      · rw [settleInterrupted, if_neg hx, bind_of_ok hes]
        rfl
      · exact List.forall_mem_cons.2 ⟨hx, hsettled⟩

/-- Where no execution is under way, nothing was interrupted. -/
theorem settleInterrupted_of_none_running {es : List Execution}
    (hes : ∀ x ∈ es, x.status ≠ .running) (s : Session σ) :
    settleInterrupted es s = (.ok es, s) := by
  induction es with
  | nil => rfl
  | cons x es ih =>
    have hx : x.status ≠ .running := hes x List.mem_cons_self
    rw [settleInterrupted, if_neg hx, bind_of_ok (ih fun y hy => hes y (List.mem_cons_of_mem _ hy))]
    rfl

/-- The session in which the executions that were under way have failed. -/
def mended (s : Session σ) : Session σ :=
  match settleInterrupted s.record.executions s with
  | (.ok executions, s') => { s' with record := { s'.record with executions } }
  | (.error _, s') => s'

/-- The session of a case that is resumed. -/
def resumedAt (s : Session σ) : Session σ :=
  if s.record.status = .paused then (mended s).launched else (mended s).saved

theorem mended_eq (s : Session σ) : ∃ executions readings,
    settleInterrupted s.record.executions s =
        (.ok executions, { s with world := { s.world with readings } }) ∧
      mended s = ⟨{ s.record with executions }, { s.world with readings }⟩ ∧
      s.record.executions.Forall₂ Execution.Matures executions ∧
      ∀ x ∈ executions, x.status ≠ .running := by
  obtain ⟨executions, readings, hsettle, hmatures, hsettled⟩ :=
    settleInterrupted_apply s.record.executions s
  refine ⟨executions, readings, hsettle, ?_, hmatures, hsettled⟩
  rw [mended, hsettle]

theorem mended_of_none_running (h : ∀ x ∈ s.record.executions, x.status ≠ .running) :
    mended s = s := by
  rw [mended, settleInterrupted_of_none_running h]

theorem resumedAt_underway (h : s.world.outage = none)
    (hstatus : s.record.status = .running ∨ s.record.status = .paused) :
    (resumedAt s).Underway := by
  obtain ⟨executions, readings, -, hmended, -⟩ := mended_eq s
  rw [resumedAt, hmended]
  rcases hstatus with hrunning | hpaused
  · rw [if_neg (by rw [hrunning]; exact nofun)]
    exact ⟨h, hrunning, Session.saved_stored _⟩
  · rw [if_pos hpaused]
    exact Session.launched_underway h

theorem resumedAt_origin (s : Session σ) : (resumedAt s).record.origin = s.record.origin := by
  obtain ⟨executions, readings, -, hmended, -⟩ := mended_eq s
  rw [resumedAt, hmended]
  split <;> rfl

theorem resumedAt_surroundings (s : Session σ) :
    (resumedAt s).world.surroundings = s.world.surroundings := by
  obtain ⟨executions, readings, -, hmended, -⟩ := mended_eq s
  rw [resumedAt, hmended]
  split <;> rfl

theorem resumedAt_currentStep (s : Session σ) :
    (resumedAt s).record.currentStep = s.record.currentStep := by
  obtain ⟨executions, readings, -, hmended, -⟩ := mended_eq s
  rw [resumedAt, hmended]
  split <;> rfl

theorem resumedAt_settled (s : Session σ) :
    ∀ x ∈ (resumedAt s).record.executions, x.status ≠ .running := by
  obtain ⟨executions, readings, -, hmended, -, hsettled⟩ := mended_eq s
  rw [resumedAt, hmended]
  split <;> exact hsettled

/-- A case goes on from where it stands, whether it is paused or was interrupted. -/
theorem resume_apply (h : s.world.outage = none)
    (hstatus : s.record.status = .running ∨ s.record.status = .paused) (ht : s.Bound t) :
    e.resume s =
      match s.record.currentStep with
      | none => (.ok (), s.completed)
      | some id =>
        if (t.step? id).isNone then
          (.error (.danglingStep id), s.failed (EngineError.danglingStep id).message)
        else e.run t id (resumedAt s) := by
  have hlive : s.record.status.isTerminal = false := by
    rcases hstatus with hstatus | hstatus <;> rw [hstatus] <;> rfl
  have hstarted : s.record.status ≠ .notStarted := by
    rcases hstatus with hstatus | hstatus <;> rw [hstatus] <;> exact nofun
  rw [resume, bind_of_ok (record_apply s)]
  simp only [hlive, if_neg hstarted, Bool.false_eq_true, if_false]
  rw [bind_of_ok (template_apply h ht), bind_of_ok (record_apply s)]
  cases s.record.currentStep with
  | none => exact complete_apply h hlive
  | some id =>
    by_cases hid : (t.step? id).isNone
    · simp only [if_pos hid]
      exact bind_of_error (failWith_apply h hlive _)
    · obtain ⟨executions, readings, hsettle, hmended, -⟩ := mended_eq s
      let settled : Session σ := ⟨s.record, { s.world with readings }⟩
      have hupdate : update ({ · with executions }) settled = (.ok (), mended s) := by
        rw [hmended]
        rfl
      have hcalm : (mended s).world.outage = none := by rw [hmended]; exact h
      simp only [if_neg hid]
      rw [bind_of_ok (record_apply s), bind_of_ok hsettle, bind_of_ok hupdate, resumedAt]
      by_cases hpaused : s.record.status = .paused
      · have hlegal : (mended s).record.status.canBecome .running = true := by
          rw [hmended]
          simp [hpaused, CaseStatus.canBecome]
        simp only [if_pos hpaused]
        rw [bind_of_ok (transition_apply hlegal),
          bind_of_ok (save_apply (s := (mended s).become .running) hcalm)]
        rfl
      · simp only [if_neg hpaused]
        rw [bind_of_ok (save_apply hcalm)]

theorem resume_eq_runFrom (h : s.world.outage = none)
    (hstatus : s.record.status = .running ∨ s.record.status = .paused) (ht : s.Bound t)
    {ss : List Step} (hordered : t.ordered = ss) {id : String}
    (hcurrent : s.record.currentStep = some id) (hid : (t.step? id).isSome) :
    e.resume s = e.runFrom ⟨ss⟩ e.config.maxVisits false id (resumedAt s) := by
  have hthere : ¬ (t.step? id).isNone := by simp [Option.ne_none_iff_isSome.2 hid]
  rw [resume_apply h hstatus ht, ← run_eq_runFrom hordered, hcurrent]
  simp only [if_neg hthere]

/-- A paused case all of whose executions are finished goes on as it is. -/
theorem resume_of_paused (h : s.world.outage = none) (hpaused : s.record.status = .paused)
    (hfinished : Execution.AllFinished s.record.gist.marks) (ht : s.Bound t) :
    e.resume s =
      match s.record.currentStep with
      | none => (.ok (), s.completed)
      | some id =>
        if (t.step? id).isNone then
          (.error (.danglingStep id), s.failed (EngineError.danglingStep id).message)
        else e.run t id s.launched := by
  have hes : ∀ x ∈ s.record.executions, x.status ≠ .running := fun x hx =>
    (hfinished x.gist.mark (List.mem_map_of_mem (List.mem_map_of_mem hx))).2
  rw [resume_apply h (.inr hpaused) ht, resumedAt, if_pos hpaused, mended_of_none_running hes]

/-! ### What can come of a start and of a resumption -/

/-- The commands by which a case comes to run. -/
inductive Launch where
  | start | resume
deriving DecidableEq, Repr

namespace Launch

def act (e : Engine σ) : Launch → Action σ Unit
  | .start => e.start
  | .resume => e.resume

/-- Whether the command fits the status of the case. -/
def accepts : Launch → CaseStatus → Bool
  | .start, status => status == .notStarted
  | .resume, status => status == .running || status == .paused

/-- A case that has ended does not come to run. -/
theorem act_of_terminal (launch : Launch) (e : Engine σ) (hover : s.record.status.isTerminal) :
    launch.act e s = (.error (.alreadyTerminal s.record.status), s) := by
  cases launch with
  | start =>
    rw [act, Engine.start, bind_of_ok (record_apply s)]
    simp only [if_pos hover]
    rfl
  | resume =>
    rw [act, Engine.resume, bind_of_ok (record_apply s)]
    simp only [if_pos hover]
    rfl

/-- Whatever the engine, a command that does not fit the status of the case is refused in the same
words. -/
theorem act_of_refused (launch : Launch) (h : launch.accepts s.record.status = false) :
    ∃ err : EngineError, err.isRefusal ∧ ∀ e : Engine σ, launch.act e s = (.error err, s) := by
  by_cases hover : s.record.status.isTerminal
  · exact ⟨_, rfl, fun e => launch.act_of_terminal e hover⟩
  refine ⟨.invalidTransition s.record.status .running, rfl, fun e => ?_⟩
  cases launch with
  | start =>
    have hstarted : s.record.status ≠ .notStarted := fun hnew => by
      rw [hnew] at h
      cases h
    rw [act, Engine.start, bind_of_ok (record_apply s)]
    simp only [if_neg hover, if_pos hstarted]
    rfl
  | resume =>
    have hnew : s.record.status = .notStarted := by
      cases hstatus : s.record.status with
      | notStarted => rfl
      | running | paused =>
        rw [hstatus] at h
        cases h
      | completed | failed | cancelled =>
        rw [hstatus] at hover
        exact absurd rfl hover
    rw [act, Engine.resume, bind_of_ok (record_apply s)]
    simp only [if_neg hover, if_pos hnew]
    rfl

/-- A command that does not fit the status of the case is refused, and nothing happens. -/
theorem refused (launch : Launch) (h : launch.accepts s.record.status = false) :
    ∃ err : EngineError, err.isRefusal ∧ launch.act e s = (.error err, s) := by
  obtain ⟨err, hrefusal, hact⟩ := launch.act_of_refused h
  exact ⟨err, hrefusal, hact e⟩

/-- A command that fits is one on a case that has not ended. -/
theorem live_of_accepts (launch : Launch) (haccepts : launch.accepts s.record.status) :
    s.record.status.isTerminal = false := by
  cases launch <;> cases hstatus : s.record.status <;> rw [hstatus] at haccepts <;>
    first | rfl | cases haccepts

/-- Without a valid template nothing comes of a command. -/
theorem act_of_template_error (launch : Launch) (haccepts : launch.accepts s.record.status)
    {err : EngineError} {s' : Session σ} (htemplate : template s = (.error err, s')) :
    launch.act e s = (.error err, s') := by
  have hlive := launch.live_of_accepts haccepts
  cases launch with
  | start =>
    have hnew : s.record.status = .notStarted := by simpa [accepts] using haccepts
    rw [act, Engine.start, bind_of_ok (record_apply s)]
    simp only [hnew, ne_eq, not_true_eq_false, if_false, CaseStatus.isTerminal,
      Bool.false_eq_true]
    exact bind_of_error htemplate
  | resume =>
    have hstarted : s.record.status ≠ .notStarted := by
      intro hnew
      rw [hnew] at haccepts
      cases haccepts
    rw [act, Engine.resume, bind_of_ok (record_apply s)]
    simp only [hlive, if_neg hstarted, Bool.false_eq_true, if_false]
    exact bind_of_error htemplate

end Launch

/-- The session from which the case sets out on a run, in the template that it is bound to. Up to now
nothing has been added to its history. -/
structure SetsOut (t : Template) (s s' : Session σ) : Prop where
  bound : s.Bound t
  underway : s'.Underway
  origin : s'.record.origin = s.record.origin
  executions : s'.record.executions.map (·.id) = s.record.executions.map (·.id)
  surroundings : s'.world.surroundings = s.world.surroundings
  ids : s'.world.ids = s.world.ids
  drawn : s'.world.drawn = s.world.drawn

/-- What can come of a case that is started or resumed: it fails before the run, it is complete
already, or there is a run of it. -/
inductive Course (e : Engine σ) (s : Session σ) : Except EngineError Unit × Session σ → Prop
  | fails {err : EngineError} (h : err.isRefusal = false) :
      Course e s (.error err, s.failed err.message)
  | completes : Course e s (.ok (), s.completed)
  | runs {t : Template} {first : String} {s' : Session σ} (h : SetsOut t s s')
      (hfirst : t.Knows (some first)) : Course e s (e.run t first s')

theorem bound_or_fails (h : s.world.outage = none) (hlive : s.record.status.isTerminal = false) :
    (∃ t, s.Bound t) ∨ ∃ err : EngineError, err.blamesTemplate ∧
      template s = (.error err, s.failed err.message) := by
  have hask := ofAttempt_of_ok (s := s) (Attempt.ask_of_no_outage h .loadTemplate
    (·.template? s.record.templateId s.record.templateVersion))
  rw [template, bind_of_ok (record_apply s)]
  simp only [Attempt.template?]
  rw [bind_of_ok hask]
  cases hstored : s.world.store.template? s.record.templateId s.record.templateVersion with
  | none => exact .inr ⟨.templateNotFound _ _, rfl, failWith_apply h hlive _⟩
  | some t =>
    cases hvalid : t.validate with
    | ok _ => exact .inl ⟨t, hstored, hvalid⟩
    | error err =>
      simp only [hvalid]
      exact .inr ⟨.invalidTemplate err, rfl, failWith_apply h hlive _⟩

theorem resumedAt_setsOut (h : s.world.outage = none)
    (hstatus : s.record.status = .running ∨ s.record.status = .paused) (ht : s.Bound t) :
    SetsOut t s (resumedAt s) := by
  have hunderway := resumedAt_underway h hstatus
  obtain ⟨executions, readings, -, hmended, hmatures, -⟩ := mended_eq s
  refine ⟨ht, hunderway, resumedAt_origin s, ?_, resumedAt_surroundings s, ?_, ?_⟩
  · have hids := Execution.ids_of_forall₂ hmatures
    rw [resumedAt, hmended]
    split <;> exact hids
  · rw [resumedAt, hmended]
    split <;> rfl
  · rw [resumedAt, hmended]
    split <;> rfl

theorem Launch.course (launch : Launch) (h : s.world.outage = none)
    (haccepts : launch.accepts s.record.status) : Course e s (launch.act e s) := by
  rcases bound_or_fails h (launch.live_of_accepts haccepts) with ⟨t, ht⟩ | ⟨err, herr, htemplate⟩
  · cases launch with
    | start =>
      have hnew : s.record.status = .notStarted := by simpa [accepts] using haccepts
      rw [act, start_apply h hnew ht]
      cases hordered : t.ordered with
      | nil => exact .completes
      | cons first others =>
        have hfirst : t.Knows (some first.id) :=
          Template.knows_id (Template.mem_ordered.1 (by simp [hordered]))
        exact .runs ⟨ht, Session.launched_underway h, rfl, rfl, rfl, rfl, rfl⟩ hfirst
    | resume =>
      have hstatus : s.record.status = .running ∨ s.record.status = .paused := by
        simpa [accepts] using haccepts
      rw [act, resume_apply h hstatus ht]
      cases s.record.currentStep with
      | none => exact .completes
      | some id =>
        by_cases hid : (t.step? id).isNone
        · simp only [if_pos hid]
          exact .fails rfl
        · simp only [if_neg hid]
          refine .runs (resumedAt_setsOut h hstatus ht) ?_
          rw [Template.knows_iff_step?, ← Option.not_isNone, eq_false_of_ne_true hid]
          rfl
  · rw [launch.act_of_template_error haccepts htemplate]
    exact .fails (EngineError.not_isRefusal_of_blamesTemplate herr)

/-! ### Cancelling -/

/-- The session in which the case has been cancelled. -/
def cancelled (s : Session σ) (reason : Option String) : Session σ :=
  ((s.become .cancelled).blamed (reason.getD "Cancelled")).saved

theorem cancel_eq_save (hlive : s.record.status.isTerminal = false) (reason : Option String) :
    cancel reason s = save ((s.become .cancelled).blamed (reason.getD "Cancelled")) := by
  have hlegal : s.record.status.canBecome .cancelled = true := by
    simp [CaseStatus.canBecome, hlive]
  have hblame : update ({ · with error := some (reason.getD "Cancelled") })
      (s.become .cancelled) = (.ok (), (s.become .cancelled).blamed _) := rfl
  rw [cancel, bind_of_ok (record_apply s)]
  simp only [hlive, Bool.false_eq_true, if_false]
  rw [bind_of_ok (transition_apply hlegal), bind_of_ok hblame]

theorem cancel_apply (h : s.world.outage = none) (hlive : s.record.status.isTerminal = false)
    (reason : Option String) : cancel reason s = (.ok (), cancelled s reason) := by
  rw [cancel_eq_save hlive]
  exact save_apply h

theorem cancel_of_terminal (hover : s.record.status.isTerminal) (reason : Option String) :
    cancel reason s = (.error (.alreadyTerminal s.record.status), s) := by
  rw [cancel, bind_of_ok (record_apply s)]
  simp only [if_pos hover]
  rfl

/-! ### Commands on the stored record -/

section Stored

variable {id : Id} {w : World σ} {r : CaseRecord}

/-- A record that is asked for by its id is had, or else nothing has happened. -/
theorem record_cases (id : Id) (w : World σ) : ∃ outage, (w.outage = none → outage = none) ∧
    ((∃ r, w.store.record? id = some r ∧ Attempt.record id w = (.ok r, { w with outage })) ∨
      ∃ err, (err = .recordNotFound id ∨ w.outage ≠ none ∧ err = .callLost .loadRecord) ∧
        Attempt.record id w = (.error err, { w with outage })) := by
  rw [Attempt.record, Attempt.record?]
  obtain ⟨outage, hcalm, hreached | hlost⟩ := Attempt.ask_cases .loadRecord (·.record? id) w
  · refine ⟨outage, hcalm, ?_⟩
    rw [bind_of_ok hreached]
    cases hr : w.store.record? id with
    | none => exact .inr ⟨_, .inl rfl, rfl⟩
    | some r => exact .inl ⟨r, rfl, rfl⟩
  · refine ⟨outage, hcalm, .inr ⟨_, .inr ⟨fun h => ?_, rfl⟩, bind_of_error hlost⟩⟩
    cases hlost.symm.trans (Attempt.ask_of_no_outage h .loadRecord (·.record? id))

theorem record_of_stored (h : w.outage = none) (hr : w.store.record? id = some r) :
    Attempt.record id w = (.ok r, w) := by
  have hask := Attempt.ask_of_no_outage h .loadRecord (·.record? id)
  rw [Attempt.record, Attempt.record?, bind_of_ok hask, hr]
  rfl

theorem record_of_unknown (h : w.outage = none) (hr : w.store.record? id = none) :
    Attempt.record id w = (.error (.recordNotFound id), w) := by
  have hask := Attempt.ask_of_no_outage h .loadRecord (·.record? id)
  rw [Attempt.record, Attempt.record?, bind_of_ok hask, hr]
  rfl

theorem withRecord_world (act : Action σ Unit) :
    (Attempt.withRecord r act w).2 = (act ⟨r, w⟩).2.world := by
  rw [Attempt.withRecord]
  rcases act ⟨r, w⟩ with ⟨_ | _, s⟩ <;> rfl

theorem withRecord_error {act : Action σ Unit} {err : EngineError}
    (h : (Attempt.withRecord r act w).1 = .error err) : (act ⟨r, w⟩).1 = .error err := by
  rw [Attempt.withRecord] at h
  rcases hact : act ⟨r, w⟩ with ⟨_ | _, s⟩ <;> rw [hact] at h <;> cases h
  rfl

theorem startById_world (h : w.outage = none) (hr : w.store.record? id = some r) :
    (e.startById id w).2 = (e.start ⟨r, w⟩).2.world := by
  rw [startById, bind_of_ok (record_of_stored h hr), withRecord_world]

theorem resumeById_world (h : w.outage = none) (hr : w.store.record? id = some r) :
    (e.resumeById id w).2 = (e.resume ⟨r, w⟩).2.world := by
  rw [resumeById, bind_of_ok (record_of_stored h hr), withRecord_world]

theorem cancelById_world (h : w.outage = none) (hr : w.store.record? id = some r)
    (reason : Option String) :
    (cancelById id reason w).2 = (cancel reason ⟨r, w⟩).2.world := by
  rw [cancelById, bind_of_ok (record_of_stored h hr), withRecord_world]

theorem completeTask.ids_amend (task : CaseTask) (es : List Execution) :
    (completeTask.amend task es).map (·.id) = es.map (·.id) := by
  rw [completeTask.amend]
  cases es.findIdx? fun x => x.id == task.executionId with
  | none => rfl
  | some place => exact Execution.ids_modify _ _ fun _ => rfl

/-- To complete a task comes to nothing, or else it is the task that the case waits for. Then it is
resolved, and the case goes on with the resolution in the output of its last execution. -/
theorem completeTask_cases (taskId : Id) (resolution : Resolution) (w : World σ) :
    ∃ outage, (w.outage = none → outage = none) ∧
      ((∃ err, (err.deniesTask ∨ w.outage ≠ none ∧ err = .callLost .loadRecord) ∧
          e.completeTask taskId resolution w = (.error err, { w with outage })) ∨
        ∃ task r, w.store.task? taskId = some task ∧ task.status = .pending ∧
          w.store.record? task.recordId = some r ∧
          r.status = .paused ∧ r.executions.getLast?.map (·.id) = some task.executionId ∧
          let resolved := task.resolve resolution (w.clock w.readings)
          let r' := { r with executions := completeTask.amend resolved r.executions }
          e.completeTask taskId resolution w =
            (do Attempt.saveRecord r'; Attempt.withRecord r' e.resume : Attempt σ CaseRecord)
              { w with
                outage
                readings := w.readings + 1
                store := w.store.saveTask resolved }) := by
  have hget : (get : Attempt σ (World σ)) w = (.ok w, w) := rfl
  rw [completeTask, bind_of_ok hget]
  cases htask : w.store.task? taskId with
  | none => exact ⟨w.outage, fun h => h, .inl ⟨_, .inl rfl, rfl⟩⟩
  | some task =>
    by_cases hresolved : task.status.isTerminal
    · simp only [if_pos hresolved]
      exact ⟨w.outage, fun h => h, .inl ⟨_, .inl rfl, rfl⟩⟩
    simp only [if_neg hresolved]
    have hpending : task.status = .pending := by
      cases hstatus : task.status with
      | pending => rfl
      | completed | rejected =>
        rw [hstatus] at hresolved
        exact absurd rfl hresolved
    obtain ⟨outage, hcalm, ⟨r, hr, hrecord⟩ | ⟨err, herr, hrecord⟩⟩ :=
      record_cases task.recordId w
    · refine ⟨outage, hcalm, ?_⟩
      rw [bind_of_ok hrecord]
      by_cases hterminal : r.status.isTerminal
      · simp only [if_pos hterminal]
        exact .inl ⟨_, .inl rfl, rfl⟩
      simp only [if_neg hterminal]
      by_cases hawaited : r.status ≠ .paused ∨
          r.executions.getLast?.map (·.id) ≠ some task.executionId
      · simp only [if_pos hawaited]
        exact .inl ⟨_, .inl rfl, rfl⟩
      simp only [if_neg hawaited]
      rw [not_or, not_not, not_not] at hawaited
      exact .inr ⟨task, r, rfl, hpending, hr, hawaited.1, hawaited.2, rfl⟩
    · refine ⟨outage, hcalm, .inl ⟨err, herr.imp_left ?_, ?_⟩⟩
      · rintro rfl
        rfl
      · rw [bind_of_error hrecord]

end Stored

end Engine

end Casework
