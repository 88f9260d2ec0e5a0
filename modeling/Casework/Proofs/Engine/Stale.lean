import Casework.Proofs.Engine.Launch
import Casework.Proofs.Template.Order

/-!
# Records that are out of date

A caller may hold a record of a case that somebody else has cancelled since. To start or to resume
the case, the engine saves the caller's record first and looks for a cancellation only then, when it
is gone from the store. So nothing but a status that forbids the command saves the cancellation. Any
other command undoes it, unless an executor is called and cancels the case once more.
-/

namespace Casework

variable {σ : Type} {calls : σ → Nat}

/-- The executor keeps count of its calls. -/
def Executor.Counts (calls : σ → Nat) (x : Executor σ) : Prop :=
  ∀ step execution record w, calls w.memory < calls (x step execution record w).2.memory

def Registry.Counts (calls : σ → Nat) (reg : Registry σ) : Prop :=
  ∀ {type x}, reg.executor? type = some x → Executor.Counts calls x

namespace Session

/-- On the way from one session to the other no executor has been called, and the case is cancelled
in the store just as the record says. -/
structure LeavesCancelled (calls : σ → Nat) (r : CaseRecord) (s s' : Session σ) : Prop where
  uncalled : calls s'.world.memory = calls s.world.memory
  cancelled : ∃ r', s'.world.store.record? s.record.id = some r' ∧ r'.status = .cancelled ∧
    r'.error = r.error ∧ r'.completedAt = r.completedAt ∧ r'.executions = r.executions

/-- An executor has been called, or the case is not cancelled in the store. -/
def Overrides (calls : σ → Nat) (s s' : Session σ) : Prop :=
  calls s.world.memory < calls s'.world.memory ∨
    s'.world.store.status? s.record.id ≠ some .cancelled

theorem Overrides.not_leavesCancelled {r : CaseRecord} {s s' : Session σ}
    (h : s.Overrides calls s') : ¬ s.LeavesCancelled calls r s' := by
  rintro ⟨huncalled, r', hr', hcancelled, -⟩
  rcases h with hcalled | hlive
  · exact Nat.ne_of_gt hcalled huncalled
  · refine hlive ?_
    rw [Store.status?, hr', Option.map_some, hcancelled]

/-- To save a record that is not cancelled is to override. -/
theorem overrides_of_stored {s s' : Session σ} (hid : s'.record.id = s.record.id)
    (hstored : s'.Stored) (hstatus : s'.record.status ≠ .cancelled) : s.Overrides calls s' := by
  refine .inr ?_
  rw [Store.status?, ← hid, show s'.world.store.record? s'.record.id = some s'.record from hstored]
  exact fun hcancelled => hstatus (Option.some.inj hcancelled)

end Session

namespace Engine

variable {e : Engine σ} {g : StepGraph} {step : Step} {s s' : Session σ}

theorem worldBehind_counts (hcounts : e.registry.Counts calls)
    (hexecutor : e.registry.contains step.type) (s : Session σ) :
    calls s.world.memory < calls (e.worldBehind step s).memory := by
  obtain ⟨x, hx⟩ := Registry.exists_of_contains hexecutor
  let begun := (s.directed (some step.id)).begun step
  rw [worldBehind_of_some hx]
  exact hcounts hx _ _ begun.record begun.world

theorem calls_le_worldBehind (hcounts : e.registry.Counts calls) (step : Step) (s : Session σ) :
    calls s.world.memory ≤ calls (e.worldBehind step s).memory := by
  by_cases hexecutor : e.registry.contains step.type
  · exact Nat.le_of_lt (worldBehind_counts hcounts hexecutor s)
  · have hnone := Registry.executor?_of_not_contains hexecutor
    exact Nat.le_of_eq (congrArg (calls ·.memory) (worldBehind_of_none hnone s).symm)

/-- A visit calls an executor, or else goes on with the record that it has saved. -/
theorem visit_overrides (he : e.registry.Calm) (hcounts : e.registry.Counts calls)
    (h : s'.Underway) (hid : s'.record.id = s.record.id)
    (hcalls : calls s.world.memory ≤ calls s'.world.memory) (viaFailure : Bool) :
    Concludes
      (fun _ _ x => x.record.id = s.record.id ∧ calls s.world.memory ≤ calls x.world.memory)
      (fun final => s.Overrides calls final.2) (e.visit g step viaFailure s') := by
  have hmemory : (e.visit g step viaFailure s').2.world.memory = (e.worldBehind step s').memory :=
    congrArg Surroundings.memory (visit_surroundings he g step h viaFailure)
  rcases visit_leads_or_brokenOff he g step h viaFailure with
    hleads | ⟨r, hexecutor, -, hbroken⟩
  · have hid := (CaseRecord.id_eq_of_origin hleads.continues.origin).trans hid
    have hstatus := behind_of_leads hleads (CaseRecord.Gist.visit_status _ h.running)
    have hstored := hleads.continues.stored
    match hresult : e.visit g step viaFailure s' with
    | (.ok (.goOn _ _), x) =>
      rw [hresult] at hmemory hid
      refine ⟨hid, ?_⟩
      rw [hmemory]
      exact Nat.le_trans hcalls (calls_le_worldBehind hcounts step s')
    | (.ok .stop, x) | (.error _, x) =>
      rw [hresult] at hid hstatus hstored
      refine Session.overrides_of_stored hid hstored ?_
      rcases hstatus with hpaused | hfailed
      · exact fun hcancelled => nomatch hpaused.symm.trans hcancelled
      · exact fun hcancelled => nomatch hfailed.symm.trans hcancelled
  · rw [hbroken] at hmemory ⊢
    refine .inl ?_
    rw [hmemory]
    exact Nat.lt_of_le_of_lt hcalls (worldBehind_counts hcounts hexecutor s')

theorem Course.overrides (he : e.registry.Calm) (hcounts : e.registry.Counts calls)
    {final : Except EngineError Unit × Session σ} (h : Course e s final) :
    s.Overrides calls final.2 := by
  cases h with
  | fails => exact Session.overrides_of_stored rfl (Session.failed_stored ..) nofun
  | completes => exact Session.overrides_of_stored rfl (Session.saved_stored _) nofun
  | @runs t first s' h _ =>
    have hmemory : s'.world.memory = s.world.memory :=
      congrArg Surroundings.memory h.surroundings
    refine runFrom_concludes he
      (fun _ _ x => x.record.id = s.record.id ∧ calls s.world.memory ≤ calls x.world.memory)
      (fun final => s.Overrides calls final.2) ?_ ?_ ?_ _ h.underway
      ⟨CaseRecord.id_eq_of_origin h.origin, Nat.le_of_eq (congrArg calls hmemory.symm)⟩
    · exact fun h _ hway => visit_overrides he hcounts h hway.1 hway.2 _
    · exact fun _ hway => Session.overrides_of_stored hway.1 (Session.saved_stored _) nofun
    · exact fun _ _ hway => Session.overrides_of_stored hway.1 (Session.failed_stored ..) nofun

end Engine

/-! ### A request that is withdrawn while it waits for an approval -/

namespace Request

/-- The executor tells how often it has been called. -/
def numbering (pauses : Bool) : Executor Nat := fun _ _ _ w =>
  (.result ⟨true, some (toString w.memory), none, pauses⟩, { w with memory := w.memory + 1 })

def approve : Step := ⟨"approve", "Approval", .clientApproval, 1, none, true, none, none⟩

def pay : Step := ⟨"pay", "Payment", .calculation, 2, none, true, none, none⟩

def template : Template where
  id := "request"
  version := 1
  name := "Request"
  description := none
  steps := [approve, pay]
  publishedAt := some ⟨0⟩

def engine : Engine Nat where
  registry := (Registry.empty.insert .clientApproval (numbering true)).insert .calculation
    (numbering false)
  config := .default

theorem numbering_of_executor {type : StepType} {x : Executor Nat}
    (hx : engine.registry.executor? type = some x) : ∃ pauses, x = numbering pauses := by
  cases type with
  | clientApproval => exact ⟨true, (Option.some.inj hx).symm⟩
  | calculation => exact ⟨false, (Option.some.inj hx).symm⟩
  | decisionTable | humanTask | documentGeneration => exact nomatch hx

theorem calm : engine.registry.Calm := by
  intro type x hx step execution record w hcalm
  obtain ⟨pauses, rfl⟩ := numbering_of_executor hx
  exact hcalm

theorem counts : engine.registry.Counts id := by
  intro type x hx step execution record w
  obtain ⟨pauses, rfl⟩ := numbering_of_executor hx
  exact Nat.lt_succ_self _

/-- The request waits for its approval. -/
def waiting : Session Nat := (engine.start (.opened template 0)).2

def withdrawn : CaseRecord := (Engine.cancelled waiting (some "withdrawn")).record

/-- Somebody has withdrawn the request, but the record at hand is still that of the one waiting. -/
def stale : Session Nat := ⟨waiting.record, (Engine.cancelled waiting (some "withdrawn")).world⟩

theorem ordered_eq : template.ordered = [approve, pay] :=
  Template.ordered_eq_of_pairwise rfl (.refl _) (by decide)

theorem waiting_eq : waiting = (engine.runFrom ⟨[approve, pay]⟩ 1000 false "approve"
    (Engine.startedAt (.opened template 0) approve)).2 := by
  have hbound : (Session.opened template 0).Bound template :=
    ⟨(Session.opened_fresh template 0).template, rfl⟩
  exact congrArg Prod.snd (Engine.start_eq_runFrom rfl rfl hbound ordered_eq)

theorem stale_paused : stale.world.outage = none ∧ stale.record.status = .paused ∧
    stale.record.currentStep = some "pay" ∧ stale.Bound template ∧ stale.world.memory = 1 ∧
    stale.CancelledAs withdrawn := by
  rw [stale, withdrawn, waiting_eq]
  exact ⟨rfl, rfl, rfl, ⟨rfl, rfl⟩, rfl, rfl, rfl⟩

theorem resume_stale :
    (engine.resume stale).2.world.store.status? stale.record.id = some .completed ∧
      (engine.resume stale).2.world.memory = 2 := by
  obtain ⟨hcalm, hpaused, hcurrent, hbound, -⟩ := stale_paused
  rw [Engine.resume_eq_runFrom hcalm (.inr hpaused) hbound ordered_eq hcurrent rfl, stale,
    waiting_eq]
  exact ⟨rfl, rfl⟩

end Request

/-! ### Which commands leave a cancellation alone -/

namespace Engine

variable {e : Engine σ} {s : Session σ}

/-- A case that is cancelled in the store stays so, and no executor is called, exactly if the record
at hand has a status that forbids the command. -/
theorem launch_leavesCancelled_iff (he : e.registry.Calm) (hcounts : e.registry.Counts calls)
    (launch : Launch) (h : s.world.outage = none) {r : CaseRecord} (hr : s.CancelledAs r) :
    s.LeavesCancelled calls r (launch.act e s).2 ↔ launch.accepts s.record.status = false := by
  cases haccepts : launch.accepts s.record.status with
  | true =>
    have hoverrides := (launch.course (e := e) h haccepts).overrides he hcounts
    exact ⟨fun hleaves => absurd hleaves hoverrides.not_leavesCancelled, nofun⟩
  | false =>
    obtain ⟨err, -, hact⟩ := launch.refused (e := e) haccepts
    rw [hact]
    exact ⟨fun _ => rfl, fun _ => ⟨rfl, r, hr.1, hr.2, rfl, rfl, rfl⟩⟩

open Request in
/-- The request that somebody has withdrawn is not started again, but it is resumed. -/
theorem launch_leavesCancelled_iff_request :
    stale.LeavesCancelled id withdrawn (engine.start stale).2 ∧
      ¬ stale.LeavesCancelled id withdrawn (engine.resume stale).2 := by
  obtain ⟨hcalm, hpaused, -, -, -, hcancelled⟩ := stale_paused
  have hstart := launch_leavesCancelled_iff calm counts .start hcalm hcancelled
  have hresume := launch_leavesCancelled_iff calm counts .resume hcalm hcancelled
  rw [hpaused] at hstart hresume
  exact ⟨hstart.2 rfl, fun hleaves => nomatch hresume.1 hleaves⟩

open Request in
/-- It is paid then, and the store has it as completed. -/
theorem resume_not_leavesCancelled_request :
    stale.CancelledAs withdrawn ∧ stale.record.status = .paused ∧
      (engine.resume stale).2.world.store.status? stale.record.id = some .completed ∧
      ¬ stale.LeavesCancelled id withdrawn (engine.resume stale).2 := by
  obtain ⟨-, hpaused, -, -, hbefore, hcancelled⟩ := stale_paused
  obtain ⟨hcompleted, hafter⟩ := resume_stale
  refine ⟨hcancelled, hpaused, hcompleted, fun hleaves => ?_⟩
  have huncalled : (engine.resume stale).2.world.memory = stale.world.memory := hleaves.uncalled
  rw [hbefore, hafter] at huncalled
  cases huncalled

end Engine

end Casework
