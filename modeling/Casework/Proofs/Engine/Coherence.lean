import Casework.Proofs.Engine.Cancellation

/-!
# Records that are coherent

A record says in several places how far the case has come: in its status, its times, its error, the
step to go on with and the executions. Between two operations these agree, whatever has been done
with the case, and even if executors have cancelled it while they were at work.

On its way a case is `Ongoing`: its executions are coherent, and it has started but neither ended
nor failed. Each visit keeps this or brings the case to rest.
-/

namespace Casework

variable {σ : Type}

/-- The execution has come to an end, and has on record what its status calls for. -/
structure Execution.Coherent (x : Execution) : Prop where
  finished : x.status.Finished
  completed : x.status = .completed → x.input.isSome ∧ x.error = none
  failed : x.status = .failed → x.input.isSome ∧ x.error.isSome ∧ x.output = none
  skipped : x.status = .skipped → x.error.isSome ∧ x.input = none ∧ x.output = none

namespace Execution.Coherent

variable {x : Execution}

/-- A completed execution may be given another output. -/
theorem with_output (h : x.Coherent) (hcompleted : x.status = .completed) (output : Option String) :
    Coherent { x with output } where
  finished := h.finished
  completed := h.completed
  failed hfailed := nomatch hcompleted.symm.trans hfailed
  skipped hskipped := nomatch hcompleted.symm.trans hskipped

theorem skip (id : Id) (step : Step) (reason : String) (now : Time) :
    ((Execution.new id step).skip reason now).Coherent where
  finished := ⟨nofun, nofun⟩
  completed := nofun
  failed := nofun
  skipped _ := ⟨rfl, rfl, rfl⟩

/-- Whatever has come of an execution that was under way is coherent. -/
theorem settle {f : Execution → Time → Execution} (hf : Execution.Settles f) (id : Id) (step : Step)
    (input : String) (now later : Time) :
    (f ((Execution.new id step).start input now) later).Coherent := by
  cases hf with
  | complete output => exact ⟨⟨nofun, nofun⟩, fun _ => ⟨rfl, rfl⟩, nofun, nofun⟩
  | fail message => exact ⟨⟨nofun, nofun⟩, nofun, fun _ => ⟨rfl, rfl, rfl⟩, nofun⟩

end Execution.Coherent

namespace CaseRecord

/-- What is on record of a case between two operations agrees with its status. -/
structure Coherent (r : CaseRecord) : Prop where
  completedAt : r.completedAt.isSome ↔ r.status.isTerminal
  error : r.error.isSome ↔ r.status = .failed ∨ r.status = .cancelled
  notStarted : r.status = .notStarted →
    r.executions = [] ∧ r.currentStep = none ∧ r.startedAt = none
  paused : r.status = .paused →
    r.startedAt.isSome ∧ ∃ x, r.executions.getLast? = some x ∧ x.status = .completed
  completed : r.status = .completed → r.currentStep = none
  executions : ∀ x ∈ r.executions, x.Coherent

/-- What is on record of a case that is on its way. -/
structure Ongoing (r : CaseRecord) : Prop where
  startedAt : r.startedAt.isSome
  completedAt : r.completedAt = none
  error : r.error = none
  executions : ∀ x ∈ r.executions, x.Coherent

/-- The times of a case and its error. -/
def stamps (r : CaseRecord) : Option Time × Option Time × Option String :=
  (r.startedAt, r.completedAt, r.error)

theorem Ongoing.of_stamps {r r' : CaseRecord} (h : r.Ongoing) (hstamps : r'.stamps = r.stamps)
    (hexecutions : ∀ x ∈ r'.executions, x.Coherent) : r'.Ongoing := by
  obtain ⟨hstartedAt, hrest⟩ := Prod.mk.inj hstamps
  obtain ⟨hcompletedAt, herror⟩ := Prod.mk.inj hrest
  exact ⟨hstartedAt ▸ h.startedAt, hcompletedAt.trans h.completedAt, herror.trans h.error,
    hexecutions⟩

namespace Coherent

variable {r : CaseRecord}

/-- A new record is coherent. -/
theorem new (id : Id) (caseId : String) (t : Template) (data : Dictionary String) (now : Time) :
    (CaseRecord.new id caseId t data now).Coherent where
  completedAt := ⟨nofun, nofun⟩
  error := ⟨nofun, nofun⟩
  notStarted _ := ⟨rfl, rfl, rfl⟩
  paused := nofun
  completed := nofun
  executions := nofun

theorem live (h : r.Coherent) (hlive : r.status.isTerminal = false) :
    r.completedAt = none ∧ r.error = none := by
  constructor
  · by_contra hcompleted
    cases hlive.symm.trans (h.completedAt.1 (Option.isSome_iff_ne_none.2 hcompleted))
  · by_contra herror
    rcases h.error.1 (Option.isSome_iff_ne_none.2 herror) with hstatus | hstatus <;>
      rw [hstatus] at hlive <;> cases hlive

/-- A case that has failed or has been cancelled, which is on record with its error and its end. -/
theorem ended (hstatus : r.status = .failed ∨ r.status = .cancelled)
    (hcompleted : r.completedAt.isSome) (herror : r.error.isSome)
    (hexecutions : ∀ x ∈ r.executions, x.Coherent) : r.Coherent where
  completedAt := by
    refine ⟨fun _ => ?_, fun _ => hcompleted⟩
    rcases hstatus with hstatus | hstatus <;> rw [hstatus] <;> rfl
  error := ⟨fun _ => hstatus, fun _ => herror⟩
  notStarted hnew := by rcases hstatus with hstatus | hstatus <;> cases hstatus.symm.trans hnew
  paused hpaused := by rcases hstatus with hstatus | hstatus <;> cases hstatus.symm.trans hpaused
  completed hdone := by rcases hstatus with hstatus | hstatus <;> cases hstatus.symm.trans hdone
  executions := hexecutions

/-- A case that has come to its end. -/
theorem done (hstatus : r.status = .completed) (hcompletedAt : r.completedAt.isSome)
    (herror : r.error = none) (hcurrent : r.currentStep = none)
    (hexecutions : ∀ x ∈ r.executions, x.Coherent) : r.Coherent where
  completedAt := by
    rw [hstatus]
    exact ⟨fun _ => rfl, fun _ => hcompletedAt⟩
  error := by
    rw [hstatus, herror]
    exact ⟨nofun, nofun⟩
  notStarted hnew := nomatch hstatus.symm.trans hnew
  paused hpaused := nomatch hstatus.symm.trans hpaused
  completed _ := hcurrent
  executions := hexecutions

/-- A case that waits behind an execution that is completed. -/
theorem waiting (hstatus : r.status = .paused) (hongoing : r.Ongoing) {x : Execution}
    (hlast : r.executions.getLast? = some x) (hcompleted : x.status = .completed) :
    r.Coherent where
  completedAt := by
    rw [hstatus, hongoing.completedAt]
    exact ⟨nofun, nofun⟩
  error := by
    rw [hstatus, hongoing.error]
    exact ⟨nofun, nofun⟩
  notStarted hnew := nomatch hstatus.symm.trans hnew
  paused _ := ⟨hongoing.startedAt, x, hlast, hcompleted⟩
  completed hdone := nomatch hstatus.symm.trans hdone
  executions := hongoing.executions

theorem withdrawn (hexecutions : ∀ x ∈ r.executions, x.Coherent) (reason : String)
    (now later : Time) : (r.withdrawn reason now later).Coherent :=
  ended (.inr rfl) rfl rfl hexecutions

end Coherent

end CaseRecord

namespace Session

/-- The case is in the store, with a record that is coherent, and no run of it is under way. -/
structure Rests (s : Session σ) : Prop where
  stored : s.Stored
  coherent : s.record.Coherent
  idle : s.record.status ≠ .running

variable {s : Session σ}

theorem failed_rests (hexecutions : ∀ x ∈ s.record.executions, x.Coherent) (message : String) :
    (s.failed message).Rests where
  stored := failed_stored ..
  coherent := .ended (.inl rfl) rfl rfl hexecutions
  idle := nofun

theorem completed_rests (herror : s.record.error = none)
    (hexecutions : ∀ x ∈ s.record.executions, x.Coherent) : s.completed.Rests where
  stored := saved_stored _
  coherent := .done rfl rfl herror rfl hexecutions
  idle := nofun

theorem cancelled_rests (hexecutions : ∀ x ∈ s.record.executions, x.Coherent)
    (reason : Option String) : (Engine.cancelled s reason).Rests where
  stored := saved_stored _
  coherent := .ended (.inr rfl) rfl rfl hexecutions
  idle := nofun

theorem Follows.numbered {past : Past} (h : s.Follows past)
    (hids : Function.Injective past.ids) : s.Numbered where
  distinct := h.ids ▸ hids
  drawn id hid := by
    rw [h.ids]
    exact h.record.ids id hid

end Session

namespace Engine

open Work Casework.Action

variable {e : Engine σ} {g : StepGraph} {t : Template} {step : Step} {s s' : Session σ}
  {p q : Point σ} {launch : Launch} {id : Id} {w w' : World σ}

/-! ### Visits -/

theorem settledIn_stamps (s : Session σ) (step : Step) (w : World σ)
    (f : Execution → Time → Execution) :
    (Visit.settledIn s step w f).record.stamps = s.record.stamps := by
  have hsettled (s : Session σ) (place : Nat) :
      (s.settled place f).record.stamps = s.record.stamps := rfl
  have hbegun (s : Session σ) : (s.begun step).record.stamps = s.record.stamps := rfl
  have hdirected (next : Option String) : (s.directed next).record.stamps = s.record.stamps := rfl
  exact (hsettled _ _).trans ((hbegun _).trans (hdirected _))

/-- The execution of the step is coherent once it has come to its end. -/
theorem settledIn_ongoing (h : s.record.Ongoing) (step : Step) (w : World σ)
    {f : Execution → Time → Execution} (hf : Execution.Settles f) :
    (Visit.settledIn s step w f).record.Ongoing := by
  refine h.of_stamps (settledIn_stamps s step w f) ?_
  rw [Visit.settledIn_executions]
  exact List.forall_mem_append.2 ⟨h.executions, List.forall_mem_singleton.2 (.settle hf ..)⟩

theorem advanced_ongoing (h : s.record.Ongoing) (next : Option String) :
    (s.directed next).saved.record.Ongoing :=
  h.of_stamps rfl h.executions

theorem pausedIn_rests (h : s.record.Ongoing) (g : StepGraph) (step : Step) (w : World σ)
    (output : Option String) : (Visit.pausedIn g s step w output).Rests := by
  have hpaused (s : Session σ) (next : Option String) :
      ((s.directed next).become .paused).saved.record.stamps = s.record.stamps := rfl
  have hexecutions := Visit.pausedIn_executions g s step w output
  have hongoing : (Visit.pausedIn g s step w output).record.Ongoing := by
    refine h.of_stamps ((hpaused _ _).trans (settledIn_stamps s step w _)) ?_
    rw [hexecutions]
    exact List.forall_mem_append.2
      ⟨h.executions, List.forall_mem_singleton.2 (.settle (.complete output) ..)⟩
  have hlast := congrArg List.getLast? hexecutions
  rw [List.getLast?_concat] at hlast
  exact ⟨Session.saved_stored _, .waiting rfl hongoing hlast rfl, nofun⟩

/-- A visit leaves the case on its way or brings it to rest. -/
theorem Visit.Yields.concludes {final : Except EngineError Next × Session σ}
    (hyields : Yields e g step s final) (h : s.record.Ongoing) :
    Concludes (fun _ _ s' => s'.record.Ongoing) (fun final => final.2.Rests) final := by
  cases hyields with
  | givesUp result hover message =>
    have hrests := Session.failed_rests (s := s.directed (some step.id)) h.executions message
    match result with
    | .ok (.goOn next via) => exact absurd rfl (hover next via)
    | .ok .stop => exact hrests
    | .error err => exact hrests
  | skips =>
    exact h.of_stamps rfl
      (List.forall_mem_append.2 ⟨h.executions, List.forall_mem_singleton.2 (.skip ..)⟩)
  | pauses _ output => exact pausedIn_rests h g step _ output
  | goesOn _ hf next via =>
    exact advanced_ongoing (settledIn_ongoing h step _ hf) next
  | fails _ message reason =>
    exact Session.failed_rests (settledIn_ongoing h step _ (.fail message)).executions reason

theorem brokenOffIn_rests (h : ∀ x ∈ s.record.executions, x.Coherent) (step : Step) (w : World σ)
    (reason : String) (now later : Time) : (brokenOffIn s step w reason now later).Rests where
  stored := brokenOffIn_stored ..
  coherent := by
    refine .ended (.inr rfl) rfl rfl ?_
    rw [brokenOffIn_executions]
    exact List.forall_mem_append.2 ⟨h, List.forall_mem_singleton.2 (.settle (.fail _) ..)⟩
  idle := nofun

/-- So does a visit during which somebody cancels the case. -/
theorem visit_concludes (he : e.registry.Calm) (hspares : e.registry.Spares s.record.id)
    (g : StepGraph) (step : Step) (h : s.Underway) (hnumbered : s.Numbered)
    (hongoing : s.record.Ongoing) (viaFailure : Bool) :
    Concludes (fun _ _ s' => s'.record.Ongoing) (fun final => final.2.Rests)
      (e.visit g step viaFailure s) := by
  rcases visit_yields_or_brokenOff he g step h viaFailure with
    hyields | ⟨r, hexecutor, hr, hbroken⟩
  · exact hyields.concludes hongoing
  · obtain ⟨reason, now, later, rfl⟩ := withdrawn_of_cancelledAs hspares h hexecutor hr
    rw [hbroken, brokenOff_withdrawn _ _ _ _ _ _ hnumbered]
    exact brokenOffIn_rests hongoing.executions step _ reason now later

/-! ### Runs and commands -/

theorem Passes.ongoing (he : e.registry.Calm) (hspares : e.registry.Spares p.session.record.id)
    (h : e.Passes g p q) (hp : p.session.Underway) (hnumbered : p.session.Numbered)
    (hongoing : p.session.record.Ongoing) : q.session.record.Ongoing := by
  induction h with
  | here => exact hongoing
  | @visit left viaFailure via id step next s s' q hid hvisit _ ih =>
    have hconcludes := visit_concludes he hspares g step hp hnumbered hongoing viaFailure
    rw [hvisit] at hconcludes
    have hsame : s'.record.id = s.record.id :=
      CaseRecord.id_eq_of_origin (goOn_origin he hp hvisit)
    exact ih (hsame ▸ hspares) (visit_underway he hp hvisit)
      (visit_numbered he hspares.draws hp hnumbered hvisit) hconcludes

theorem Halts.rests {final : Except EngineError Unit × Session σ} (he : e.registry.Calm)
    (hspares : e.registry.Spares p.session.record.id) (h : e.Halts g p final)
    (hp : p.session.Underway) (hnumbered : p.session.Numbered)
    (hongoing : p.session.record.Ongoing) : final.2.Rests := by
  cases h with
  | completes => exact Session.completed_rests hongoing.error hongoing.executions
  | dangles => exact Session.failed_rests hongoing.executions _
  | exceeds => exact Session.failed_rests hongoing.executions _
  | @stops left viaFailure id step s s' hid hvisit
  | @breaks left viaFailure id step s s' err hid hvisit =>
    have hconcludes := visit_concludes he hspares g step hp hnumbered hongoing viaFailure
    rw [hvisit] at hconcludes
    exact hconcludes

theorem Enters.ongoing (h : e.Enters t s launch p) (hrests : s.Rests) :
    p.session.record.Ongoing := by
  have hcoherent := hrests.coherent
  cases h with
  | @start first others hnew =>
    obtain ⟨hexecutions, -, -⟩ := hcoherent.notStarted hnew
    obtain ⟨hcompletedAt, herror⟩ := hcoherent.live (by rw [hnew]; rfl)
    refine ⟨?_, hcompletedAt, herror, hcoherent.executions⟩
    show (s.record.startedAt.or (some _)).isSome
    cases s.record.startedAt <;> rfl
  | resume hstatus =>
    have hpaused := hstatus.resolve_left hrests.idle
    obtain ⟨hstartedAt, -⟩ := hcoherent.paused hpaused
    obtain ⟨hcompletedAt, herror⟩ := hcoherent.live (by rw [hpaused]; rfl)
    have hnone : ∀ x ∈ s.record.executions, x.status ≠ .running :=
      fun x hx => (hcoherent.executions x hx).finished.2
    rw [resumedAt, if_pos hpaused, mended_of_none_running hnone]
    refine ⟨?_, hcompletedAt, herror, hcoherent.executions⟩
    show (s.record.startedAt.or (some _)).isSome
    rw [Option.isSome_or, hstartedAt, Bool.true_or]

theorem Launch.rests (he : e.registry.Calm) (hspares : e.registry.Spares s.record.id)
    (launch : Launch) (h : s.world.outage = none) (hnumbered : s.Numbered) (hrests : s.Rests) :
    (launch.act e s).2.Rests := by
  cases haccepts : launch.accepts s.record.status with
  | false =>
    obtain ⟨err, -, hact⟩ := launch.refused (e := e) haccepts
    rw [hact]
    exact hrests
  | true =>
    obtain ⟨-, herror⟩ := hrests.coherent.live (launch.live_of_accepts haccepts)
    have hexecutions := hrests.coherent.executions
    rcases launch.act_halts he h with
      ⟨final, hact, hfinal⟩ | ⟨t, p, q, ht, henters, hpasses, hhalts⟩
    · rw [hact]
      rcases hfinal with ⟨err, -, rfl⟩ | ⟨err, -, rfl⟩ | rfl
      · exact hrests
      · exact Session.failed_rests hexecutions _
      · exact Session.completed_rests herror hexecutions
    · have hunderway := henters.underway h
      have hnumbered := henters.numbered h ht hnumbered
      have hid := CaseRecord.id_eq_of_origin henters.origin
      rw [← hid] at hspares
      have hongoing := hpasses.ongoing he hspares hunderway hnumbered (henters.ongoing hrests)
      have hsame := CaseRecord.id_eq_of_origin (hpasses.origin he hunderway)
      rw [← hsame] at hspares
      exact hhalts.rests he hspares (hpasses.underway he hunderway)
        (hpasses.numbered he hspares.draws hunderway hnumbered) hongoing

/-- A command finds a case at rest and leaves it so. -/
theorem Command.rests (he : e.registry.Calm) (hspares : e.registry.Spares s.record.id)
    (command : Command) (h : s.world.outage = none) (hnumbered : s.Numbered) (hrests : s.Rests) :
    (command.act e s).2.Rests := by
  cases command with
  | launch launch => exact launch.rests he hspares h hnumbered hrests
  | cancel reason =>
    rw [act]
    cases hlive : s.record.status.isTerminal with
    | true =>
      rw [cancel_of_terminal hlive]
      exact hrests
    | false =>
      rw [cancel_apply h hlive]
      exact Session.cancelled_rests hrests.coherent.executions reason

/-! ### Operations -/

/-- The worlds that come after one in which the case has been opened, by operations on the case and
by other work that spares it. No call to the store is lost. -/
inductive Undergoes (e : Engine σ) (id : Id) (w₀ : World σ) : World σ → Prop
  | opened : Undergoes e id w₀ w₀
  | operate {w : World σ} (h : Undergoes e id w₀ w) (op : Operation) (hop : op.Concerns id w) :
      Undergoes e id w₀ (op.run e id w).2
  | meanwhile {w w' : World σ} (h : Undergoes e id w₀ w) (hw : w.Spares id w')
      (hcalm : w'.outage = none) : Undergoes e id w₀ w'

theorem Undergoes.reaches {r₀ : CaseRecord} {w₀ : World σ} (h : e.Undergoes r₀.id w₀ w) :
    e.Reaches r₀ w₀ w [r₀] := by
  induction h with
  | opened => exact .opened
  | operate _ op hop ih => exact ih.operate op hop
  | meanwhile _ hw _ ih => exact ih.meanwhile hw

/-- No call is lost because of an engine whose executors cost it none. -/
theorem upkeep_calm (he : e.registry.Calm) :
    Upkeep e (fun _ => True) fun s => s.world.outage = none where
  ticked h := h
  asked h hcalm := hcalm h
  found _ _ := trivial
  turned h _ _ _ := h
  directed h _ _ := h
  saved h := h
  adopted h _ := h
  extended h _ _ := h
  matured h _ := h
  called _ h hx := he hx _ _ _ _ h
  settled _ h _ _ _ := h

theorem Operation.run_calm (he : e.registry.Calm) (op : Operation) (hop : op.Concerns id w)
    (h : w.outage = none) : (op.run e id w).2.outage = none := by
  rcases op.fails_or_runs (e := e) hop with hfails | ⟨r, s, command, hruns⟩
  · exact hfails.calm h
  · rw [hruns.result]
    exact ((upkeep_calm he).upholds_command (.any _ _) command s (hruns.calm h)).property

theorem Operation.Readies.coherent {op : Operation} {r r' : CaseRecord} (h : op.Readies r r')
    (hdistinct : (r.executions.map (·.id)).Nodup) (hr : r.Coherent) : r'.Coherent := by
  cases op with
  | complete taskId resolution =>
    -- The resolution goes to the last execution, which has completed, as the case is paused.
    obtain ⟨hpaused, task, hlast, rfl⟩ := h
    obtain ⟨output, hamend⟩ := amend_eq_modify hdistinct hlast
    obtain ⟨hstartedAt, x, hx, hcompleted⟩ := hr.paused hpaused
    obtain ⟨before, hexecutions⟩ := List.getLast?_eq_some_iff.1 hx
    have hall := hr.executions
    rw [hexecutions] at hall hamend
    rw [List.length_append, List.length_singleton, Nat.add_sub_cancel, Visit.modify_length_append]
      at hamend
    rw [hexecutions, hamend]
    refine ⟨hr.completedAt, hr.error, ?_, fun _ => ⟨hstartedAt, ?_⟩, hr.completed, ?_⟩
    · exact fun hnew => nomatch hpaused.symm.trans hnew
    · exact ⟨_, List.getLast?_concat, hcompleted⟩
    · obtain ⟨hbefore, hx⟩ := List.forall_mem_append.1 hall
      refine List.forall_mem_append.2 ⟨hbefore, List.forall_mem_singleton.2 ?_⟩
      exact (List.forall_mem_singleton.1 hx).with_output hcompleted output
  | start | resume | cancel =>
    obtain rfl : r' = r := h
    exact hr

theorem Operation.Readies.idle {op : Operation} {r r' : CaseRecord} (h : op.Readies r r')
    (hr : r.status ≠ .running) : r'.status ≠ .running := by
  cases op with
  | complete taskId resolution =>
    obtain ⟨-, task, -, rfl⟩ := h
    exact hr
  | start | resume | cancel =>
    obtain rfl : r' = r := h
    exact hr

/-- The record that the store has of the case is coherent, and no run of it is under way. -/
def AtRest (id : Id) (w : World σ) : Prop :=
  ∃ r, w.store.record? id = some r ∧ r.Coherent ∧ r.status ≠ .running

theorem AtRest.spared (h : AtRest id w) (hw : w.Spares id w') : AtRest id w' := by
  obtain ⟨r, hr, hcoherent, hidle⟩ := h
  rcases hw.record with hsame | ⟨r', reason, now, later, hr', -, hwithdrawn⟩
  · exact ⟨r, hsame.trans hr, hcoherent, hidle⟩
  · obtain rfl : r' = r := Option.some.inj (hr'.symm.trans hr)
    exact ⟨_, hwithdrawn, .withdrawn hcoherent.executions reason now later, nofun⟩

/-- An operation finds the case at rest and leaves it so. -/
theorem AtRest.operate {past : Past} (h : AtRest past.origin.id w) (he : e.registry.Calm)
    (hspares : e.registry.Spares past.origin.id) (hcalm : w.outage = none)
    (hids : Function.Injective past.ids) (hfollows : w.Follows past)
    (hpast : past.executions = []) {op : Operation} (hop : op.Concerns past.origin.id w) :
    AtRest past.origin.id (op.run e past.origin.id w).2 := by
  rcases op.fails_or_runs (e := e) hop with hfails | ⟨r, s, command, hruns⟩
  · exact h.spared hfails.spares
  obtain ⟨r', hr, hcoherent, hidle⟩ := h
  obtain rfl : r' = r := Option.some.inj (hr.symm.trans hruns.stored)
  have hr := hfollows.of_record? hr
  have hready := hruns.readied.follows hpast hr
  have hnow := hruns.follows hfollows.ids hready [] (.nil _)
  have hid : s.record.id = past.origin.id := hnow.record.id
  have hrests : s.Rests := by
    refine ⟨?_, hruns.readied.coherent hr.distinct hcoherent, hruns.readied.idle hidle⟩
    rw [Session.Stored, hid]
    exact hruns.saved
  have hfinal :=
    command.rests he (hid.symm ▸ hspares) (hruns.calm hcalm) (hnow.numbered hids) hrests
  have hsame : (command.act e s).2.record.id = past.origin.id :=
    (keeps_command (p := { past with executions := [], drawn := w.drawn }) hids hspares command s
      hnow).record.id
  have hstored : (command.act e s).2.Stored := hfinal.stored
  rw [Session.Stored, hsame] at hstored
  rw [hruns.result]
  exact ⟨_, hstored, hfinal.coherent, hfinal.idle⟩

/-- A case that rests once it has been opened rests between any two operations. -/
theorem Undergoes.atRest {r₀ : CaseRecord} {w₀ : World σ} (h : e.Undergoes r₀.id w₀ w)
    (he : e.registry.Calm) (hspares : e.registry.Spares r₀.id) (hcalm : w₀.outage = none)
    (hids : Function.Injective w₀.ids) (hstored : w₀.store.record? r₀.id = some r₀)
    (hnew : r₀.executions = []) (hrest : AtRest r₀.id w₀) :
    w.outage = none ∧ AtRest r₀.id w := by
  induction h with
  | opened => exact ⟨hcalm, hrest⟩
  | @operate w h op hop ih =>
    have hfollows := (h.reaches.sound hids hspares hstored hnew).toFollows
    exact ⟨op.run_calm he hop ih.1, ih.2.operate he hspares ih.1 hids hfollows rfl hop⟩
  | meanwhile _ hw hcalm ih => exact ⟨hcalm, ih.2.spared hw⟩

/-- A case that has just been opened rests. -/
theorem openCase_atRest {caseId templateId : String} {version : Option Nat}
    {data : Dictionary String} {w₀ w₁ : World σ} {r₀ : CaseRecord}
    (hopen : openCase caseId templateId version data w₀ = (.ok r₀, w₁)) : AtRest r₀.id w₁ := by
  obtain ⟨hstored, id, t, now, rfl⟩ := openCase_new hopen
  exact ⟨_, hstored, .new .., nofun⟩

/-- Whatever is done with a case from its opening on, its record is coherent between any two
operations. -/
theorem record_coherent (he : e.registry.Calm) {caseId templateId : String} {version : Option Nat}
    {data : Dictionary String} {w₀ w₁ : World σ} {r₀ : CaseRecord} (hcalm : w₀.outage = none)
    (hids : Function.Injective w₁.ids)
    (hopen : openCase caseId templateId version data w₀ = (.ok r₀, w₁))
    (hspares : e.registry.Spares r₀.id) (h : e.Undergoes r₀.id w₁ w) :
    ∃ r, w.store.record? r₀.id = some r ∧ r.Coherent := by
  obtain ⟨_, hfresh, -⟩ := openCase_fresh hcalm hopen
  obtain ⟨-, r, hr, hcoherent, -⟩ := h.atRest he hspares hfresh.calm hids (openCase_new hopen).1
    hfresh.executions (openCase_atRest hopen)
  exact ⟨r, hr, hcoherent⟩

open Notice in
theorem record_coherent_notice :
    ∃ r, worldApproved.store.record? opened.id = some r ∧ r.Coherent := by
  have hopen : openCase "case" "notice" none .empty world = (.ok opened, worldOpened) := rfl
  have hstarted : engine.Undergoes opened.id worldOpened worldStarted :=
    Undergoes.opened.operate .start trivial
  have happroved : engine.Undergoes opened.id worldOpened worldApproved :=
    hstarted.operate (.complete ⟨3⟩ ⟨false, none, none⟩) fun _ htask => recordId_of_task htask
  exact record_coherent (Registry.Discreet.calm Registry.builtIn_discreet) rfl ids_injective hopen
    (Registry.builtIn_spares _) happroved

end Engine

end Casework
