import Casework.Engine.Run
import Casework.Proofs.Engine.Gist
import Casework.Proofs.Register

/-!
# What the steps of an engine do to a session

As long as no call to the store is lost, each action of an engine ends in a session that can be
written down. The sessions are built from four moves: a look at the clock, a new id, a change of the
record and a save. A save makes the stored record equal to the one at hand, and apart from the
records, the clock and the ids no move touches the world.
-/

namespace Casework

variable {σ α β : Type}

/-- What an engine leaves alone in the world. -/
structure Surroundings (σ : Type) where
  templates : Register fun t : Template => (t.id, t.version)
  ruleSets : Register RuleSet.id
  formulas : Register Formula.id
  tasks : Register CaseTask.id
  outage : Option Outage
  memory : σ

def World.surroundings (w : World σ) : Surroundings σ :=
  { templates := w.store.templates, ruleSets := w.store.ruleSets, formulas := w.store.formulas
    tasks := w.store.tasks, outage := w.outage, memory := w.memory }

/-- There has been work on cases: templates, rule sets and formulas are as they were. -/
def Surroundings.Aside (u u' : Surroundings σ) : Prop :=
  ∃ tasks memory, u' = { u with tasks, memory }

namespace Surroundings.Aside

variable {w w' : World σ}

theorem templates (h : w.surroundings.Aside w'.surroundings) :
    w'.store.templates = w.store.templates := by
  obtain ⟨_, _, h⟩ := h
  exact congrArg Surroundings.templates h

theorem outage (h : w.surroundings.Aside w'.surroundings) : w'.outage = w.outage := by
  obtain ⟨_, _, h⟩ := h
  exact congrArg Surroundings.outage h

end Surroundings.Aside

namespace Store

theorem record?_saveRecord (s : Store) (r : CaseRecord) (id : Id) :
    (s.saveRecord r).record? id = if r.id = id then some r else s.record? id :=
  Register.find?_insert s.records r id

@[simp] theorem record?_saveRecord_self (s : Store) (r : CaseRecord) :
    (s.saveRecord r).record? r.id = some r := by
  simp [record?_saveRecord]

/-- A template that is found under an id and a version has them. -/
theorem key_of_template? {s : Store} {t : Template} {id : String} {version : Nat}
    (h : s.template? id version = some t) : t.id = id ∧ t.version = version := by
  have hkey := Register.key_of_find? (r := s.templates) h
  exact Prod.mk.inj hkey

end Store

/-! ### Running attempts and actions -/

namespace Work

variable {S ε : Type}

theorem bind_apply (x : ExceptT ε (StateM S) α) (f : α → ExceptT ε (StateM S) β) (s : S) :
    (x >>= f) s = match x s with
      | (.ok a, s') => f a s'
      | (.error e, s') => (.error e, s') := by
  change (match x s with | (a, s') => ExceptT.bindCont f a s') = _
  rcases x s with ⟨_ | _, _⟩ <;> rfl

variable {x : ExceptT ε (StateM S) α} {f : α → ExceptT ε (StateM S) β} {s s' : S}

theorem pure_apply (a : α) (s : S) : (pure a : ExceptT ε (StateM S) α) s = (.ok a, s) := rfl

theorem bind_of_ok {a : α} (h : x s = (.ok a, s')) : (x >>= f) s = f a s' := by
  rw [bind_apply, h]

theorem bind_of_error {e : ε} (h : x s = (.error e, s')) :
    (x >>= f) s = (.error e, s') := by
  rw [bind_apply, h]

theorem ok_of_bind {b : β} {s'' : S} (h : (x >>= f) s = (.ok b, s'')) :
    ∃ a s', x s = (.ok a, s') ∧ f a s' = (.ok b, s'') := by
  rw [bind_apply] at h
  match hx : x s with
  | (.ok a, s') =>
    rw [hx] at h
    exact ⟨a, s', rfl, h⟩
  | (.error e, s') =>
    rw [hx] at h
    cases h

end Work

/-! ### The moves -/

namespace Session

def now (s : Session σ) : Time := s.world.clock s.world.readings

/-- The session behind a look at the clock. -/
def ticked (s : Session σ) : Session σ :=
  { s with world := { s.world with readings := s.world.readings + 1 } }

/-- The session behind a new id. -/
def drawn (s : Session σ) : Session σ :=
  { s with world := { s.world with drawn := s.world.drawn + 1 } }

/-- The session in which the case is to go on with a step, or to come to its end. -/
def directed (s : Session σ) (next : Option String) : Session σ :=
  { s with record := { s.record with currentStep := next } }

def blamed (s : Session σ) (message : String) : Session σ :=
  { s with record := { s.record with error := some message } }

def extended (s : Session σ) (e : Execution) : Session σ :=
  { s with record := { s.record with executions := s.record.executions ++ [e] } }

def become (s : Session σ) (next : CaseStatus) : Session σ :=
  { s.ticked with record := s.record.become next s.now }

/-- The record is in the store as it is at hand, with the time of the save. -/
def saved (s : Session σ) : Session σ :=
  let r := { s.record with updatedAt := s.now }
  { record := r, world := { s.ticked.world with store := s.world.store.saveRecord r } }

def failed (s : Session σ) (message : String) : Session σ :=
  ((s.blamed message).become .failed).saved

/-- The record at hand is the one in the store. -/
def Stored (s : Session σ) : Prop := s.world.store.record? s.record.id = some s.record

/-- Somebody has cancelled the case in the store and left this record there. -/
def CancelledAs (s : Session σ) (r : CaseRecord) : Prop :=
  s.world.store.record? s.record.id = some r ∧ r.status = .cancelled

theorem live_or_cancelledAs (s : Session σ) :
    s.world.store.status? s.record.id ≠ some .cancelled ∨ ∃ r, s.CancelledAs r := by
  rw [Store.status?]
  cases hstored : s.world.store.record? s.record.id with
  | none => exact .inl nofun
  | some r =>
    by_cases hcancelled : r.status = .cancelled
    · exact .inr ⟨r, hstored, hcancelled⟩
    · exact .inl fun h => hcancelled (Option.some.inj h)

/-- A case that is under way has not been cancelled. -/
theorem Stored.live_of_running {s : Session σ} (h : s.Stored)
    (hrunning : s.record.status = .running) :
    s.world.store.status? s.record.id ≠ some .cancelled := by
  rw [Store.status?, show s.world.store.record? s.record.id = some s.record from h]
  simp [hrunning]

section Projections

variable (s : Session σ) (e : Execution) (next : Option String) (message : String)
  (status : CaseStatus)

@[simp] theorem ticked_record : s.ticked.record = s.record := rfl
@[simp] theorem drawn_record : s.drawn.record = s.record := rfl

@[simp] theorem directed_gist :
    (s.directed next).record.gist = { s.record.gist with currentStep := next } := rfl
@[simp] theorem extended_gist : (s.extended e).record.gist =
    { s.record.gist with executions := s.record.gist.executions ++ [e.gist] } := by
  simp [extended, CaseRecord.gist]
@[simp] theorem become_gist :
    (s.become status).record.gist = { s.record.gist with status } := rfl
@[simp] theorem saved_gist : s.saved.record.gist = s.record.gist := rfl
@[simp] theorem failed_gist : (s.failed message).record.gist =
    { s.record.gist with status := .failed, error := some message } := rfl

@[simp] theorem saved_executions : s.saved.record.executions = s.record.executions := rfl

@[simp] theorem directed_status : (s.directed next).record.status = s.record.status := rfl
@[simp] theorem blamed_status : (s.blamed message).record.status = s.record.status := rfl

@[simp] theorem saved_stored : s.saved.Stored := Store.record?_saveRecord_self _ _
@[simp] theorem failed_stored : (s.failed message).Stored := saved_stored _

end Projections

end Session

/-! ### The actions in terms of the moves -/

namespace Attempt

theorem ask_of_no_outage {w : World σ} (h : w.outage = none) (call : StoreCall)
    (answer : Store → α) : ask call answer w = (.ok (answer w.store), w) := by
  simp [ask, World.reaches, h]

/-- A call comes through or is lost, and apart from an outage the world is the same. -/
theorem ask_cases (call : StoreCall) (answer : Store → α) (w : World σ) : ∃ outage,
    (w.outage = none → outage = none) ∧
      (ask call answer w = (.ok (answer w.store), { w with outage }) ∨
        ask call answer w = (.error (.callLost call), { w with outage })) := by
  obtain ⟨store, clock, readings, ids, drawn, outage, memory⟩ := w
  cases outage with
  | none => exact ⟨none, fun _ => rfl, .inl rfl⟩
  | some outage =>
    obtain ⟨lost, passing⟩ := outage
    by_cases hlost : lost = call
    · cases passing with
      | zero => exact ⟨none, nofun, .inr (by simp [ask, World.reaches, hlost])⟩
      | succ n => exact ⟨some ⟨lost, n⟩, nofun, .inl (by simp [ask, World.reaches, hlost])⟩
    · exact ⟨some ⟨lost, passing⟩, nofun, .inl (by simp [ask, World.reaches, hlost])⟩

theorem saveRecord_of_no_outage {w : World σ} (h : w.outage = none) (r : CaseRecord) :
    saveRecord r w = (.ok (), { w with store := w.store.saveRecord r }) :=
  Work.bind_of_ok (ask_of_no_outage h .saveRecord fun _ => ())

theorem saveRecord_cases (r : CaseRecord) (w : World σ) : ∃ outage,
    (w.outage = none → outage = none) ∧
      (saveRecord r w = (.ok (), { w with outage, store := w.store.saveRecord r }) ∨
        saveRecord r w = (.error (.callLost .saveRecord), { w with outage })) := by
  obtain ⟨outage, hcalm, hreached | hlost⟩ := ask_cases .saveRecord (fun _ => ()) w
  · exact ⟨outage, hcalm, .inl (Work.bind_of_ok hreached)⟩
  · exact ⟨outage, hcalm, .inr (Work.bind_of_error hlost)⟩

end Attempt

namespace Action

open Work

theorem record_apply (s : Session σ) : (record : Action σ CaseRecord) s = (.ok s.record, s) := rfl

theorem now_apply (s : Session σ) : sure World.now s = (.ok s.now, s.ticked) := rfl

theorem newId_apply (s : Session σ) :
    sure World.newId s = (.ok (s.world.ids s.world.drawn), s.drawn) := rfl

theorem direct_apply (next : Option String) (s : Session σ) :
    update ({ · with currentStep := next }) s = (.ok (), s.directed next) := rfl

theorem extend_apply (e : Execution) (s : Session σ) :
    update (fun r => { r with executions := r.executions ++ [e] }) s = (.ok (), s.extended e) :=
  rfl

theorem ofAttempt_of_ok {attempt : Attempt σ α} {s : Session σ} {a : α} {w : World σ}
    (h : attempt s.world = (.ok a, w)) :
    ofAttempt attempt s = (.ok a, { s with world := w }) := by
  simp only [ofAttempt, h]

theorem ofAttempt_of_error {attempt : Attempt σ α} {s : Session σ} {err : EngineError}
    {w : World σ} (h : attempt s.world = (.error err, w)) :
    ofAttempt attempt s = (.error err, { s with world := w }) := by
  simp only [ofAttempt, h]

theorem transition_apply {s : Session σ} {next : CaseStatus}
    (h : s.record.status.canBecome next = true) : transition next s = (.ok (), s.become next) := by
  rw [transition, bind_of_ok (record_apply s), if_pos h, bind_of_ok (now_apply s)]
  rfl

theorem save_apply {s : Session σ} (h : s.world.outage = none) : save s = (.ok (), s.saved) := by
  let s' : Session σ := { s.ticked with record := { s.record with updatedAt := s.now } }
  have hupdate : update ({ · with updatedAt := s.now }) s.ticked = (.ok (), s') := rfl
  have hsave : Attempt.saveRecord s'.record s'.world = (.ok (), s.saved.world) :=
    Attempt.saveRecord_of_no_outage (w := s'.world) h s'.record
  rw [save, bind_of_ok (now_apply s), bind_of_ok hupdate, bind_of_ok (record_apply s')]
  exact ofAttempt_of_ok hsave

/-- A save that is lost leaves the store as it is. -/
theorem save_cases (s : Session σ) : ∃ outage, (s.world.outage = none → outage = none) ∧
    (save s = (.ok (), { s.saved with world := { s.saved.world with outage } }) ∨
      save s = (.error (.callLost .saveRecord),
        { s.saved with world := { s.ticked.world with outage } })) := by
  let s' : Session σ := { s.ticked with record := { s.record with updatedAt := s.now } }
  have hupdate : update ({ · with updatedAt := s.now }) s.ticked = (.ok (), s') := rfl
  rw [save, bind_of_ok (now_apply s), bind_of_ok hupdate, bind_of_ok (record_apply s')]
  obtain ⟨outage, hcalm, hsaved | hlost⟩ := Attempt.saveRecord_cases s'.record s'.world
  · exact ⟨outage, hcalm, .inl (ofAttempt_of_ok hsaved)⟩
  · exact ⟨outage, hcalm, .inr (ofAttempt_of_error hlost)⟩

theorem fail_apply {s : Session σ} (h : s.world.outage = none)
    (hlive : s.record.status.isTerminal = false) (message : String) :
    fail message s = (.ok (), s.failed message) := by
  have hblame : update ({ · with error := some message }) s = (.ok (), s.blamed message) := rfl
  have hlegal : (s.blamed message).record.status.canBecome .failed = true := by
    simpa [CaseStatus.canBecome] using hlive
  rw [fail, bind_of_ok hblame, bind_of_ok (transition_apply hlegal)]
  exact save_apply h

theorem failWith_apply {s : Session σ} (h : s.world.outage = none)
    (hlive : s.record.status.isTerminal = false) (e : EngineError) :
    (failWith e : Action σ α) s = (.error e, s.failed e.message) := by
  rw [failWith, bind_of_ok (fail_apply h hlive e.message)]
  rfl

theorem adoptCancellation_of_live {s : Session σ} (h : s.world.outage = none)
    (hlive : s.world.store.status? s.record.id ≠ some .cancelled) :
    adoptCancellation s = (.ok false, s) := by
  have hstatus := ofAttempt_of_ok (s := s)
    (Attempt.ask_of_no_outage h .loadStatus (·.status? s.record.id))
  rw [adoptCancellation, bind_of_ok (record_apply s)]
  simp only [Attempt.status?]
  rw [bind_of_ok hstatus, if_neg hlive]
  rfl

/-- A case that is cancelled in the store goes on as the record there. -/
theorem adoptCancellation_of_cancelledAs {s : Session σ} {r : CaseRecord}
    (h : s.world.outage = none) (hr : s.CancelledAs r) :
    adoptCancellation s = (.ok true, { s with record := r }) := by
  have hask := ofAttempt_of_ok (s := s)
    (Attempt.ask_of_no_outage h .loadStatus (·.status? s.record.id))
  have hload := ofAttempt_of_ok (s := s)
    (Attempt.ask_of_no_outage h .loadRecord (·.record? s.record.id))
  have hcancelled : s.world.store.status? s.record.id = some .cancelled := by
    rw [Store.status?, hr.1, Option.map_some, hr.2]
  rw [adoptCancellation, bind_of_ok (record_apply s)]
  simp only [Attempt.status?, Attempt.record?]
  rw [bind_of_ok hask, if_pos hcancelled, bind_of_ok hload, hr.1]
  rfl

/-- Whoever looks for a cancellation finds none, is not answered, or goes on with the cancelled
record. -/
theorem adoptCancellation_cases (s : Session σ) : ∃ outage, (s.world.outage = none → outage = none) ∧
    (s.world.store.status? s.record.id ≠ some .cancelled ∧
        adoptCancellation s = (.ok false, { s with world := { s.world with outage } }) ∨
      (∃ call, adoptCancellation s =
        (.error (.callLost call), { s with world := { s.world with outage } })) ∨
      ∃ r, s.CancelledAs r ∧ adoptCancellation s = (.ok true, ⟨r, { s.world with outage }⟩)) := by
  rw [adoptCancellation, bind_of_ok (record_apply s)]
  simp only [Attempt.status?, Attempt.record?]
  obtain ⟨outage, hcalm, hreached | hlost⟩ :=
    Attempt.ask_cases .loadStatus (·.status? s.record.id) s.world
  · rw [bind_of_ok (ofAttempt_of_ok hreached)]
    rcases s.live_or_cancelledAs with hlive | ⟨r, hr⟩
    · rw [if_neg hlive]
      exact ⟨outage, hcalm, .inl ⟨hlive, rfl⟩⟩
    · have hcancelled : s.world.store.status? s.record.id = some .cancelled := by
        rw [Store.status?, hr.1, Option.map_some, hr.2]
      obtain ⟨outage', hcalm', hreached' | hlost'⟩ :=
        Attempt.ask_cases .loadRecord (·.record? s.record.id) { s.world with outage }
      · rw [if_pos hcancelled,
          bind_of_ok (ofAttempt_of_ok (s := ⟨s.record, { s.world with outage }⟩) hreached'), hr.1]
        exact ⟨outage', fun h => hcalm' (hcalm h), .inr (.inr ⟨r, hr, rfl⟩)⟩
      · rw [if_pos hcancelled,
          bind_of_error (ofAttempt_of_error (s := ⟨s.record, { s.world with outage }⟩) hlost')]
        exact ⟨outage', fun h => hcalm' (hcalm h), .inr (.inl ⟨_, rfl⟩)⟩
  · rw [bind_of_error (ofAttempt_of_error hlost)]
    exact ⟨outage, hcalm, .inr (.inl ⟨_, rfl⟩)⟩

end Action

end Casework
