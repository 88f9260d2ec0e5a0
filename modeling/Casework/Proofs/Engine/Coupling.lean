import Casework.Proofs.Engine.Settlement

/-!
# Two engines side by side

Take two engines with the same settings, and a relation between their sessions: related sessions
agree in all that an engine looks at, and each of its moves leads from related sessions to related
ones. Then both come to the same results, from related sessions to related ones, with every command.
The worlds may differ in whatever no engine looks at.
-/

namespace Casework

variable {σ τ α β : Type}

/-- From related states both come to the same result, and to states that are related. -/
def Work.Couples {S S' ε : Type} (R : S → S' → Prop) (x : ExceptT ε (StateM S) α)
    (y : ExceptT ε (StateM S') α) : Prop :=
  ∀ ⦃s s'⦄, R s s' → (x s).1 = (y s').1 ∧ R (x s).2 (y s').2

/-- Both executors reply the same to the same case, and leave the worlds related. -/
def Executor.Couples (R : Session σ → Session τ → Prop) (x : Executor σ) (y : Executor τ) : Prop :=
  ∀ ⦃s s'⦄, R s s' → ∀ step execution,
    let answer := x step execution s.record s.world
    let answer' := y step execution s'.record s'.world
    answer.1 = answer'.1 ∧ R { s with world := answer.2 } { s' with world := answer'.2 }

/-- Related sessions are of the same case and agree in what the engines look at, and they stay
related with each move. -/
structure Engine.Coupling (e : Engine σ) (e' : Engine τ) (id : Id)
    (R : Session σ → Session τ → Prop) : Prop where
  config : e.config = e'.config
  recordId : ∀ {s s'}, R s s' → s.record.id = id
  record : ∀ {s s'}, R s s' → s.record = s'.record
  now : ∀ {s s'}, R s s' → s.now = s'.now
  newId : ∀ {s s'}, R s s' → s.world.ids s.world.drawn = s'.world.ids s'.world.drawn
  outage : ∀ {s s'}, R s s' → s.world.outage = s'.world.outage
  stored : ∀ {s s'}, R s s' → s.world.store.record? id = s'.world.store.record? id
  templates : ∀ {s s'}, R s s' → ∀ templateId version,
    s.world.store.template? templateId version = s'.world.store.template? templateId version
  ticked : ∀ {s s'}, R s s' → R s.ticked s'.ticked
  drawn : ∀ {s s'}, R s s' → R s.drawn s'.drawn
  asked : ∀ {s s'}, R s s' → ∀ outage,
    R { s with world := { s.world with outage } } { s' with world := { s'.world with outage } }
  turned : ∀ {s s' r}, R s s' → r.id = id → R { s with record := r } { s' with record := r }
  saved : ∀ {s s'}, R s s' →
    R { s with world := { s.world with store := s.world.store.saveRecord s.record } }
      { s' with world := { s'.world with store := s'.world.store.saveRecord s'.record } }
  executors : ∀ type,
    Option.Rel (Executor.Couples R) (e.registry.executor? type) (e'.registry.executor? type)

/-! ### Work on related states -/

namespace Work

variable {S S' ε : Type} {R : S → S' → Prop}

/-- What is known of the result of the first action may be used for the second. -/
theorem Couples.bind_of {P : α → Prop} {x : ExceptT ε (StateM S) α}
    {y : ExceptT ε (StateM S') α} {f : α → ExceptT ε (StateM S) β}
    {g : α → ExceptT ε (StateM S') β} (h : Couples R x y) (hP : ∀ s a, (x s).1 = .ok a → P a)
    (hf : ∀ a, P a → Couples R (f a) (g a)) : Couples R (x >>= f) (y >>= g) := by
  intro s s' hs
  have hknown := hP s
  obtain ⟨hresult, hbehind⟩ := h hs
  rw [bind_apply, bind_apply]
  generalize x s = final at hknown hresult hbehind
  generalize y s' = final' at hresult hbehind
  obtain ⟨result, s₁⟩ := final
  obtain ⟨_, s₁'⟩ := final'
  obtain rfl := hresult
  cases result with
  | ok a => exact hf a (hknown a rfl) hbehind
  | error err => exact ⟨rfl, hbehind⟩

theorem Couples.bind {x : ExceptT ε (StateM S) α} {y : ExceptT ε (StateM S') α}
    {f : α → ExceptT ε (StateM S) β} {g : α → ExceptT ε (StateM S') β}
    (h : Couples R x y) (hf : ∀ a, Couples R (f a) (g a)) : Couples R (x >>= f) (y >>= g) :=
  h.bind_of (P := fun _ => True) (fun _ _ _ => trivial) fun a _ => hf a

theorem couples_pure (a : α) :
    Couples R (pure a : ExceptT ε (StateM S) α) (pure a : ExceptT ε (StateM S') α) :=
  fun _ _ hs => ⟨rfl, hs⟩

theorem couples_throw (err : ε) :
    Couples R (throw err : ExceptT ε (StateM S) α) (throw err : ExceptT ε (StateM S') α) :=
  fun _ _ hs => ⟨rfl, hs⟩

end Work

/-- The same calls to the store are lost in worlds that are to lose the same. -/
theorem Attempt.ask_alike {Q : World σ → World τ → Prop} {w : World σ} {w' : World τ} (h : Q w w')
    (houtage : w.outage = w'.outage)
    (hasked : ∀ outage, Q { w with outage } { w' with outage }) (call : StoreCall)
    {answer : Store → α} (hanswer : answer w.store = answer w'.store) :
    let asked := Attempt.ask call answer w
    let asked' := Attempt.ask call answer w'
    asked.1 = asked'.1 ∧ Q asked.2 asked'.2 := by
  obtain ⟨store, clock, readings, ids, drawn, outage, memory⟩ := w
  obtain ⟨store', clock', readings', ids', drawn', _, memory'⟩ := w'
  obtain rfl := houtage
  simp only [Attempt.ask, World.reaches]
  cases outage with
  | none => exact ⟨congrArg Except.ok hanswer, h⟩
  | some outage =>
    obtain ⟨lost, passing⟩ := outage
    by_cases hlost : lost = call
    · simp only [if_pos hlost]
      cases passing with
      | zero => exact ⟨rfl, hasked none⟩
      | succ n => exact ⟨congrArg Except.ok hanswer, hasked (some ⟨lost, n⟩)⟩
    · simp only [if_neg hlost]
      exact ⟨congrArg Except.ok hanswer, h⟩

namespace Engine.Coupling

open Work Casework.Action

variable {e : Engine σ} {e' : Engine τ} {id : Id} {R : Session σ → Session τ → Prop}
  {step : Step} {g : StepGraph}

theorem couples_record (c : Coupling e e' id R) : Couples R Action.record Action.record :=
  fun _ _ hs => ⟨congrArg Except.ok (c.record hs), hs⟩

theorem couples_now (c : Coupling e e' id R) : Couples R (sure World.now) (sure World.now) :=
  fun _ _ hs => ⟨congrArg Except.ok (c.now hs), c.ticked hs⟩

theorem couples_newId (c : Coupling e e' id R) : Couples R (sure World.newId) (sure World.newId) :=
  fun _ _ hs => ⟨congrArg Except.ok (c.newId hs), c.drawn hs⟩

theorem couples_update (c : Coupling e e' id R) {f : CaseRecord → CaseRecord}
    (hf : ∀ r, (f r).id = r.id) : Couples R (update f) (update f) := by
  intro s s' hs
  rw [update, update, ← c.record hs]
  exact ⟨rfl, c.turned hs ((hf s.record).trans (c.recordId hs))⟩

theorem couples_transition (c : Coupling e e' id R) (next : CaseStatus) :
    Couples R (transition next) (transition next) := by
  refine c.couples_record.bind fun r => ?_
  by_cases hlegal : r.status.canBecome next
  · simp only [hlegal, if_true]
    exact c.couples_now.bind fun now => c.couples_update fun _ => rfl
  · simp only [hlegal, if_false, Bool.false_eq_true]
    exact couples_throw _

/-! ### Calls to the store -/

theorem ask (c : Coupling e e' id R) {s : Session σ} {s' : Session τ} (hs : R s s')
    (call : StoreCall) (answer : Store → α)
    (hanswer : answer s.world.store = answer s'.world.store) :
    let asked := Attempt.ask call answer s.world
    let asked' := Attempt.ask call answer s'.world
    asked.1 = asked'.1 ∧ R { s with world := asked.2 } { s' with world := asked'.2 } :=
  Attempt.ask_alike (Q := fun w w' => R { s with world := w } { s' with world := w' }) hs
    (c.outage hs) (c.asked hs) call hanswer

theorem saveRecord (c : Coupling e e' id R) {s : Session σ} {s' : Session τ} (hs : R s s') :
    let saved := Attempt.saveRecord s.record s.world
    let saved' := Attempt.saveRecord s'.record s'.world
    saved.1 = saved'.1 ∧ R { s with world := saved.2 } { s' with world := saved'.2 } := by
  have hcouples : Couples (fun w w' => R { s with world := w } { s' with world := w' })
      (Attempt.saveRecord s.record) (Attempt.saveRecord s'.record) :=
    .bind (fun _ _ h => c.ask h .saveRecord (fun _ => ()) rfl) fun _ _ _ h => ⟨rfl, c.saved h⟩
  exact hcouples hs

theorem couples_save (c : Coupling e e' id R) : Couples R save save :=
  c.couples_now.bind fun _ => .bind (c.couples_update fun _ => rfl) fun _ _ _ hs => c.saveRecord hs

theorem couples_fail (c : Coupling e e' id R) (message : String) :
    Couples R (fail message) (fail message) :=
  .bind (c.couples_update fun _ => rfl) fun _ =>
    (c.couples_transition _).bind fun _ => c.couples_save

theorem couples_failWith (c : Coupling e e' id R) (err : EngineError) :
    Couples R (failWith err : Action σ α) (failWith err : Action τ α) :=
  (c.couples_fail _).bind fun _ => couples_throw err

theorem couples_ask (c : Coupling e e' id R) (call : StoreCall) {answer : Store → α}
    (hanswer : ∀ {s s'}, R s s' → answer s.world.store = answer s'.world.store) :
    Couples R (ofAttempt (Attempt.ask call answer)) (ofAttempt (Attempt.ask call answer)) :=
  fun _ _ hs => c.ask hs call answer (hanswer hs)

/-- Both adopt the same record, if any. -/
theorem couples_adoptCancellation (c : Coupling e e' id R) :
    Couples R adoptCancellation adoptCancellation := by
  intro s s' hs
  rw [adoptCancellation, adoptCancellation, bind_of_ok (record_apply s),
    bind_of_ok (record_apply s'), ← c.record hs, c.recordId hs]
  refine Couples.bind (c.couples_ask .loadStatus ?_) (fun status => ?_) hs
  · exact fun hs => congrArg (Option.map _) (c.stored hs)
  by_cases hcancelled : status = some .cancelled
  · simp only [if_pos hcancelled]
    -- The record that is taken over has to be one of the case for the sessions to stay related.
    refine Couples.bind_of (P := fun stored => ∀ r ∈ stored, r.id = id)
      (c.couples_ask .loadRecord fun hs => c.stored hs) ?_ fun stored hid => ?_
    · intro s stored hfound r hr
      obtain ⟨_, -, hreached | hlost⟩ := Attempt.ask_cases .loadRecord (·.record? id) s.world
      · rw [Attempt.record?, ofAttempt_of_ok hreached] at hfound
        exact Register.key_of_find? ((Except.ok.inj hfound).trans hr)
      · rw [Attempt.record?, ofAttempt_of_error hlost] at hfound
        cases hfound
    · cases stored with
      | none => exact couples_pure true
      | some r =>
        have hadopt : Couples R (update fun _ => r) (update fun _ => r) :=
          fun _ _ hs => ⟨rfl, c.turned hs (hid r rfl)⟩
        exact hadopt.bind fun _ => couples_pure true
  · simp only [if_neg hcancelled]
    exact couples_pure false

theorem couples_template (c : Coupling e e' id R) : Couples R template template := by
  refine c.couples_record.bind fun r => ?_
  refine (c.couples_ask .loadTemplate fun hs => c.templates hs _ _).bind fun found => ?_
  cases found with
  | none => exact c.couples_failWith _
  | some t =>
    cases hvalid : t.validate with
    | error err =>
      simp only [hvalid]
      exact c.couples_failWith _
    | ok _ =>
      simp only [hvalid]
      exact couples_pure t

theorem couples_complete (c : Coupling e e' id R) : Couples R complete complete :=
  .bind (c.couples_update fun _ => rfl) fun _ =>
    (c.couples_transition _).bind fun _ => c.couples_save

/-! ### Visits -/

open Visit

theorem couples_advance (c : Coupling e e' id R) (next : Option String) (viaFailure : Bool) :
    Couples R (advance next viaFailure) (advance next viaFailure) :=
  .bind (c.couples_update fun _ => rfl) fun _ => c.couples_save.bind fun _ => couples_pure _

theorem couples_withoutExecutor (c : Coupling e e' id R) (g : StepGraph) (step : Step)
    (viaFailure : Bool) :
    Couples R (withoutExecutor g step viaFailure) (withoutExecutor g step viaFailure) := by
  rw [withoutExecutor, withoutExecutor]
  by_cases hvia : viaFailure
  · simp only [if_pos hvia]
    exact c.couples_failWith _
  simp only [if_neg hvia]
  by_cases hrequired : step.required
  · simp only [if_pos hrequired]
    exact (c.couples_fail _).bind fun _ => couples_pure _
  · simp only [if_neg hrequired]
    exact c.couples_newId.bind fun _ => c.couples_now.bind fun _ =>
      .bind (c.couples_update fun _ => rfl) fun _ => c.couples_advance _ _

theorem couples_begin (c : Coupling e e' id R) (step : Step) :
    Couples R (Visit.begin step) (Visit.begin step) :=
  c.couples_record.bind fun _ => c.couples_newId.bind fun _ => c.couples_now.bind fun _ =>
    .bind (c.couples_update fun _ => rfl) fun _ => c.couples_save.bind fun _ => couples_pure _

theorem couples_settle (c : Coupling e e' id R) (place : Nat) (f : Execution → Time → Execution) :
    Couples R (settle place f) (settle place f) :=
  c.couples_now.bind fun _ => c.couples_update fun _ => rfl

theorem couples_breakOff (c : Coupling e e' id R) (execution : Execution) :
    Couples R (breakOff execution) (breakOff execution) := by
  refine c.couples_record.bind fun r => ?_
  cases r.executions.findIdx? fun x => x.id == execution.id with
  | none => exact couples_pure ()
  | some place =>
    by_cases hrunning : r.executions[place]?.any (·.status == .running)
    · simp only [if_pos hrunning]
      exact (c.couples_settle _ _).bind fun _ => c.couples_save
    · simp only [if_neg hrunning]
      exact couples_pure ()

theorem couples_apply (c : Coupling e e' id R) (g : StepGraph) (step : Step) (place : Nat)
    (o : Outcome) : Couples R (apply g step place o) (apply g step place o) := by
  cases o with
  | pause output =>
    exact (c.couples_settle _ _).bind fun _ => .bind (c.couples_update fun _ => rfl) fun _ =>
      (c.couples_transition _).bind fun _ => c.couples_save.bind fun _ => couples_pure _
  | success output => exact (c.couples_settle _ _).bind fun _ => c.couples_advance _ _
  | failure message =>
    refine (c.couples_settle _ _).bind fun _ => ?_
    cases step.onFailure with
    | some target => exact c.couples_advance _ _
    | none =>
      by_cases hrequired : step.required
      · simp only [if_pos hrequired]
        exact (c.couples_fail _).bind fun _ => couples_pure _
      · simp only [if_neg hrequired]
        exact c.couples_advance _ _

theorem couples_withExecutor (c : Coupling e e' id R) (g : StepGraph) (step : Step)
    {x : Executor σ} {y : Executor τ} (hxy : Executor.Couples R x y) :
    Couples R (withExecutor g step x) (withExecutor g step y) := by
  refine c.couples_record.bind fun r => (c.couples_begin step).bind fun execution => ?_
  intro s s' hs
  obtain ⟨hreply, hbehind⟩ := hxy hs step execution
  have hcalled : Action.sure (x step execution s.record) s =
    (.ok (x step execution s.record s.world).1, _) := rfl
  have hcalled' : Action.sure (y step execution s'.record) s' =
    (.ok (y step execution s'.record s'.world).1, _) := rfl
  rw [bind_of_ok (record_apply s), bind_of_ok (record_apply s'), bind_of_ok hcalled,
    bind_of_ok hcalled', ← hreply]
  refine c.couples_adoptCancellation.bind (fun cancelled => ?_) hbehind
  cases cancelled with
  | true => exact (c.couples_breakOff _).bind fun _ => couples_pure _
  | false => exact c.couples_apply _ _ _ _

theorem couples_visit (c : Coupling e e' id R) (g : StepGraph) (step : Step) (viaFailure : Bool) :
    Couples R (e.visit g step viaFailure) (e'.visit g step viaFailure) := by
  refine .bind (c.couples_update fun _ => rfl) fun _ => ?_
  have hexecutors := c.executors step.type
  cases hx : e.registry.executor? step.type with
  | none =>
    cases hy : e'.registry.executor? step.type with
    | none => exact c.couples_withoutExecutor g step viaFailure
    | some y =>
      rw [hx, hy] at hexecutors
      cases hexecutors
  | some x =>
    cases hy : e'.registry.executor? step.type with
    | none =>
      rw [hx, hy] at hexecutors
      cases hexecutors
    | some y =>
      rw [hx, hy] at hexecutors
      cases hexecutors with
      | some hxy => exact c.couples_withExecutor g step hxy

/-! ### Runs and commands -/

theorem couples_runFrom (c : Coupling e e' id R) (g : StepGraph) (left : Nat) (viaFailure : Bool)
    (first : String) :
    Couples R (e.runFrom g left viaFailure first) (e'.runFrom g left viaFailure first) := by
  induction left generalizing viaFailure first with
  | zero =>
    rw [runFrom, runFrom, ← c.config]
    refine c.couples_adoptCancellation.bind fun cancelled => ?_
    cases cancelled with
    | true => exact couples_pure ()
    | false =>
      cases g.step? first with
      | none => exact c.couples_failWith _
      | some step => exact c.couples_failWith _
  | succ left ih =>
    rw [runFrom, runFrom]
    refine c.couples_adoptCancellation.bind fun cancelled => ?_
    cases cancelled with
    | true => exact couples_pure ()
    | false =>
      cases g.step? first with
      | none => exact c.couples_failWith _
      | some step =>
        refine (c.couples_visit g step viaFailure).bind fun next => ?_
        cases next with
        | stop => exact couples_pure ()
        | goOn next via =>
          cases next with
          | none => exact c.couples_complete
          | some next => exact ih via next

theorem couples_run (c : Coupling e e' id R) (t : Template) (first : String) :
    Couples R (e.run t first) (e'.run t first) := by
  rw [run, run, ← c.config]
  exact c.couples_runFrom _ _ _ _

theorem couples_start (c : Coupling e e' id R) : Couples R e.start e'.start := by
  rw [start, start]
  refine c.couples_record.bind fun r => ?_
  by_cases hterminal : r.status.isTerminal
  · simp only [if_pos hterminal]
    exact couples_throw _
  simp only [if_neg hterminal]
  by_cases hstarted : r.status ≠ .notStarted
  · simp only [if_pos hstarted]
    exact couples_throw _
  simp only [if_neg hstarted]
  refine c.couples_template.bind fun t => ?_
  cases t.ordered with
  | nil => exact c.couples_complete
  | cons first others =>
    exact .bind (c.couples_update fun _ => rfl) fun _ => (c.couples_transition _).bind fun _ =>
      c.couples_save.bind fun _ => c.couples_run t first.id

theorem couples_settleInterrupted (c : Coupling e e' id R) (es : List Execution) :
    Couples R (settleInterrupted es) (settleInterrupted es) := by
  induction es with
  | nil => exact couples_pure []
  | cons x es ih =>
    rw [settleInterrupted, settleInterrupted]
    by_cases hrunning : x.status = .running
    · simp only [if_pos hrunning]
      exact c.couples_now.bind fun _ => ih.bind fun _ => couples_pure _
    · simp only [if_neg hrunning]
      exact ih.bind fun _ => couples_pure _

theorem couples_resume (c : Coupling e e' id R) : Couples R e.resume e'.resume := by
  rw [resume, resume]
  refine c.couples_record.bind fun r => ?_
  by_cases hterminal : r.status.isTerminal
  · simp only [if_pos hterminal]
    exact couples_throw _
  simp only [if_neg hterminal]
  by_cases hnew : r.status = .notStarted
  · simp only [if_pos hnew]
    exact couples_throw _
  simp only [if_neg hnew]
  refine c.couples_template.bind fun t => c.couples_record.bind fun r' => ?_
  cases r'.currentStep with
  | none => exact c.couples_complete
  | some first =>
    have hrun : Couples R
        (do if r.status = .paused then transition .running
            save
            e.run t first)
        (do if r.status = .paused then transition .running
            save
            e'.run t first) := by
      by_cases hpaused : r.status = .paused
      · simp only [if_pos hpaused]
        exact (c.couples_transition _).bind fun _ =>
          c.couples_save.bind fun _ => c.couples_run t first
      · simp only [if_neg hpaused]
        exact c.couples_save.bind fun _ => c.couples_run t first
    have hgoesOn := c.couples_record.bind fun r =>
      (c.couples_settleInterrupted r.executions).bind fun executions =>
        .bind (c.couples_update (f := ({ · with executions })) fun _ => rfl) fun _ => hrun
    by_cases hdangling : (t.step? first).isNone
    · simp only [if_pos hdangling]
      exact (c.couples_failWith _).bind fun _ => hgoesOn
    · simp only [if_neg hdangling]
      exact hgoesOn

theorem couples_cancel (c : Coupling e e' id R) (reason : Option String) :
    Couples R (cancel reason) (cancel reason) := by
  rw [cancel, cancel]
  refine c.couples_record.bind fun r => ?_
  by_cases hterminal : r.status.isTerminal
  · simp only [if_pos hterminal]
    exact couples_throw _
  · simp only [if_neg hterminal]
    exact (c.couples_transition _).bind fun _ =>
      .bind (c.couples_update fun _ => rfl) fun _ => c.couples_save

/-- Whatever the command, both come to the same. -/
theorem couples_command (c : Coupling e e' id R) :
    ∀ command : Command, Couples R (command.act e) (command.act e')
  | .launch .start => c.couples_start
  | .launch .resume => c.couples_resume
  | .cancel reason => c.couples_cancel reason

end Engine.Coupling

end Casework
