import Casework.Proofs.Engine.Launch

/-!
# Commands are refused or settle the case

A command that does not fit the status of a case is refused, and then nothing has happened. Any
other command leaves a settled record: it is in the store as the caller has it, and the case waits
or has ended. An error it ends with is on record as what the case has failed with.

Executors may meanwhile do to the store what they like. A case that they cancel there is taken over
as they leave it, and any other record that they put in its place is written over by the next save.
-/

namespace Casework

variable {σ : Type}

/-- The case waits for somebody, or has ended. -/
def CaseStatus.AtRest (s : CaseStatus) : Prop :=
  s = .completed ∨ s = .paused ∨ s = .failed ∨ s = .cancelled

namespace Session

/-- The session behind a command that has not been refused. -/
structure Settled (result : Except EngineError Unit) (s : Session σ) : Prop where
  stored : s.Stored
  atRest : s.record.status.AtRest
  error : ∀ {err}, result = .error err → err.isRefusal = false ∧ s.record.status = .failed ∧
    s.record.error = some err.message

theorem failed_settled (s : Session σ) {err : EngineError} (h : err.isRefusal = false) :
    (s.failed err.message).Settled (.error err) where
  stored := failed_stored ..
  atRest := .inr (.inr (.inl rfl))
  error herr := by
    obtain rfl := Except.error.inj herr
    exact ⟨h, rfl, rfl⟩

theorem completed_settled (s : Session σ) : s.completed.Settled (.ok ()) where
  stored := saved_stored _
  atRest := .inl rfl
  error herr := nomatch herr

/-- Whoever has cancelled the case has left it settled. -/
theorem CancelledAs.settled {s : Session σ} {r : CaseRecord} (h : s.CancelledAs r) :
    Settled (.ok ()) ⟨r, s.world⟩ where
  stored := by
    have hid : r.id = s.record.id := Register.key_of_find? h.1
    rw [Stored, hid]
    exact h.1
  atRest := .inr (.inr (.inr h.2))
  error herr := nomatch herr

theorem Settled.brokenOff {s : Session σ} (h : s.Settled (.ok ())) (id : Id) :
    (s.brokenOff id).Settled (.ok ()) := by
  rcases s.brokenOff_cases id with hsame | ⟨place, -, hfailed⟩
  · rwa [hsame]
  · rw [hfailed]
    exact ⟨saved_stored _, h.atRest, nofun⟩

end Session

namespace Engine

open Casework.Action

variable {e : Engine σ} {g : StepGraph} {step : Step} {s : Session σ}

/-! ### Runs -/

/-- A visit leaves the case on its way or settles it. -/
theorem visit_settles (he : e.registry.Calm) (h : s.Underway) (viaFailure : Bool) :
    Concludes (fun _ _ _ => True) (fun final => final.2.Settled final.1)
      (e.visit g step viaFailure s) := by
  rcases visit_leads_or_brokenOff he g step h viaFailure with
    hleads | ⟨r, -, hr, hbroken⟩
  · have hstatus := behind_of_leads hleads (CaseRecord.Gist.visit_status _ h.running)
    have hstored := hleads.continues.stored
    match hresult : e.visit g step viaFailure s with
    | (.ok (.goOn _ _), _) => trivial
    | (.ok .stop, s') =>
      rw [hresult] at hstatus hstored
      refine ⟨hstored, ?_, nofun⟩
      rcases hstatus with hpaused | hfailed
      · exact .inr (.inl hpaused)
      · exact .inr (.inr (.inl hfailed))
    | (.error err, s') =>
      rw [hresult] at hleads hstored
      obtain ⟨rfl, hfailed, herror⟩ := CaseRecord.Gist.visit_error hleads.result.symm
      rw [← hleads.gist] at hfailed herror
      refine ⟨hstored, .inr (.inr (.inl hfailed)), ?_⟩
      intro err' herr
      obtain rfl := Except.error.inj herr
      exact ⟨rfl, hfailed, herror⟩
  · rw [hbroken]
    exact (Session.CancelledAs.settled hr).brokenOff _

theorem run_settles (he : e.registry.Calm) (h : s.Underway) (t : Template) (first : String) :
    (e.run t first s).2.Settled (e.run t first s).1 := by
  refine runFrom_concludes he (fun _ _ _ => True) (fun final => final.2.Settled final.1) ?_ ?_ ?_ _
    h trivial
  · exact fun h _ _ => visit_settles he h _
  · exact fun _ _ => Session.completed_settled _
  · exact fun hrefusal _ _ => Session.failed_settled _ hrefusal

theorem Course.settled (he : e.registry.Calm) {final : Except EngineError Unit × Session σ}
    (h : Course e s final) : final.2.Settled final.1 := by
  cases h with
  | fails hrefusal => exact Session.failed_settled s hrefusal
  | completes => exact s.completed_settled
  | runs h _ => exact run_settles he h.underway _ _

/-! ### Commands -/

/-- What a caller can do with a record. -/
inductive Command where
  | launch (launch : Launch)
  | cancel (reason : Option String)
deriving DecidableEq, Repr

namespace Command

def act (e : Engine σ) : Command → Action σ Unit
  | .launch l => l.act e
  | .cancel reason => Engine.cancel reason

/-- Whether the command fits the status of the case. -/
def accepts : Command → CaseStatus → Bool
  | .launch l, status => l.accepts status
  | .cancel _, status => !status.isTerminal

/-- No command fits a case that has ended. -/
theorem accepts_of_terminal (command : Command) {status : CaseStatus} (h : status.isTerminal) :
    command.accepts status = false := by
  match command with
  | .launch .start | .launch .resume => cases status <;> first | rfl | cases h
  | .cancel _ => rw [accepts, h, Bool.not_true]

theorem refused (command : Command) (h : command.accepts s.record.status = false) :
    ∃ err : EngineError, err.isRefusal ∧ command.act e s = (.error err, s) := by
  cases command with
  | launch l => exact l.refused h
  | cancel reason => exact ⟨_, rfl, cancel_of_terminal (by simpa [accepts] using h) reason⟩

theorem settles (he : e.registry.Calm) (command : Command) (h : s.world.outage = none)
    (haccepts : command.accepts s.record.status) :
    (command.act e s).2.Settled (command.act e s).1 := by
  cases command with
  | launch l => exact (l.course h haccepts).settled he
  | cancel reason =>
    have hlive : s.record.status.isTerminal = false := by simpa [accepts] using haccepts
    rw [act, cancel_apply h hlive]
    exact ⟨Session.saved_stored _, .inr (.inr (.inr rfl)), nofun⟩

end Command

/-- A command that is refused changes nothing. Behind any other the case is settled: the record is
in the store, it waits or has ended, and an error is on record. -/
theorem refused_or_settled (he : e.registry.Calm) (command : Command)
    (h : s.world.outage = none) :
    (∀ err, (command.act e s).1 = .error err → err.isRefusal → (command.act e s).2 = s) ∧
      ((∀ err, (command.act e s).1 = .error err → err.isRefusal = false) →
        (command.act e s).2.Settled (command.act e s).1) := by
  cases haccepts : command.accepts s.record.status with
  | false =>
    obtain ⟨err, hrefusal, hact⟩ := command.refused (e := e) haccepts
    rw [hact]
    refine ⟨fun _ _ _ => rfl, fun hother => ?_⟩
    cases hrefusal.symm.trans (hother err rfl)
  | true =>
    have hsettled := command.settles he h haccepts
    refine ⟨fun err herr hrefusal => ?_, fun _ => hsettled⟩
    cases hrefusal.symm.trans (hsettled.error herr).1

/-! ### A case that is withdrawn while it runs -/

namespace Withdrawal

/-- Whoever is to do the step withdraws the case instead. -/
def withdraw : Executor σ := fun _ _ record w =>
  (.result (.succeeded "done"), (cancelById record.id (some "withdrawn") w).2)

theorem withdraw_calm : (withdraw : Executor σ).Calm := by
  intro step execution record w hcalm
  rw [withdraw]
  cases hstored : w.store.record? record.id with
  | none =>
    rw [cancelById, Work.bind_of_error (record_of_unknown hcalm hstored)]
    exact hcalm
  | some r =>
    rw [cancelById_world hcalm hstored]
    cases hover : r.status.isTerminal with
    | true =>
      rw [cancel_of_terminal (s := ⟨r, w⟩) hover]
      exact hcalm
    | false =>
      rw [cancel_apply (s := ⟨r, w⟩) hcalm hover]
      exact hcalm

def template : Template where
  id := "claim"
  version := 1
  name := "Claim"
  description := none
  steps := [⟨"assess", "Assessment", .calculation, 1, none, true, none, none⟩]
  publishedAt := some ⟨0⟩

def engine : Engine Unit := ⟨Registry.empty.insert .calculation withdraw, .default⟩

theorem calm : engine.registry.Calm := by
  intro type x hx
  cases type with
  | calculation =>
    obtain rfl := Option.some.inj hx
    exact withdraw_calm
  | decisionTable | humanTask | clientApproval | documentGeneration => exact nomatch hx

def opened : Session Unit := .opened template ()

theorem start_opened : (engine.start opened).1 = .ok () ∧
    (engine.start opened).2.record.status = .cancelled := by
  have hbound : opened.Bound template := ⟨(Session.opened_fresh template ()).template, rfl⟩
  rw [Engine.start_eq_runFrom rfl rfl hbound (List.mergeSort_singleton _)]
  exact ⟨rfl, rfl⟩

end Withdrawal

open Withdrawal in
theorem refused_or_settled_withdrawal : (engine.start opened).2.Settled (engine.start opened).1 ∧
    (engine.start opened).2.record.status = .cancelled := by
  obtain ⟨hresult, hcancelled⟩ := start_opened
  refine ⟨(refused_or_settled calm (.launch .start) (s := opened) rfl).2 ?_, hcancelled⟩
  intro err herr
  cases hresult.symm.trans herr

end Engine

end Casework
