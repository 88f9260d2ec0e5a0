import Casework.Proofs.Engine.History
import Casework.Proofs.Engine.Settlement
import Casework.Proofs.Template.Links

/-!
# What an engine keeps, whatever comes of its commands

Whether a command succeeds, fails or loses a call to the store on its way, it consists of a few moves:
the clock is read and an id drawn, the record is changed and saved or given up for the one in the
store, and executors are called. `Upkeep` lists the moves. What each of them keeps is kept by every
command, so that a property of cases is shown by a look at the moves one by one. `Permits` says in the
same way what a command may end with as its error.
-/

namespace Casework

variable {σ α β : Type}

/-! ### Moves -/

/-- Each move of the engine keeps the property, with templates of which something may be known. Of an
execution that has begun in a session `s`, the moves in the session `s'` behind it may assume that the
property held before it began. -/
structure Engine.Upkeep (e : Engine σ) (T : Template → Prop) (I : Session σ → Prop) : Prop where
  ticked : ∀ {s}, I s → I s.ticked
  asked : ∀ {s outage}, I s → (s.world.outage = none → outage = none) →
    I { s with world := { s.world with outage } }
  found : ∀ {s t}, I s →
    s.world.store.template? s.record.templateId s.record.templateVersion = some t → T t
  turned : ∀ {s r}, I s → r.origin = s.record.origin → r.executions = s.record.executions →
    r.currentStep = s.record.currentStep → I { s with record := r }
  directed : ∀ {s t next}, I s → T t → t.Knows next → I (s.directed next)
  saved : ∀ {s}, I s →
    I { s with world := { s.world with store := s.world.store.saveRecord s.record } }
  adopted : ∀ {s r}, I s → s.world.store.record? s.record.id = some r → I { s with record := r }
  extended : ∀ {s x}, I s → x.id = s.world.ids s.world.drawn →
    x.status = .skipped ∨ x.input = some s.input → I (s.drawn.ticked.extended x)
  matured : ∀ {s executions}, I s → s.record.executions.Forall₂ Execution.Matures executions →
    I { s with record := { s.record with executions } }
  called : ∀ {s step x outage}, I s →
    let begun := { s.begun step with world := { (s.begun step).world with outage } }
    I begun → e.registry.executor? step.type = some x →
    I { begun with world := (x step (s.execution step) begun.record begun.world).2 }
  settled : ∀ {s s' step y}, I s → I s' → s'.record = (s.begun step).record →
    y.id = (s.execution step).id → y.input = some s.input →
    I { s' with record := { s'.record with executions := s.record.executions ++ [y] } }

/-- The errors that the engine may come to while it keeps the property. -/
structure EngineError.Permits (T : Template → Prop) (I : Session σ → Prop)
    (E : EngineError → Prop) : Prop where
  refusal : ∀ {err : EngineError}, err.isRefusal → E err
  lost : ∀ call, E (.callLost call)
  noExecutor : ∀ id type, E (.noExecutor id type)
  tooManyVisits : ∀ limit, E (.tooManyVisits limit)
  missing : ∀ {s}, I s →
    s.world.store.template? s.record.templateId s.record.templateVersion = none →
    E (.templateNotFound s.record.templateId s.record.templateVersion)
  invalid : ∀ {t err}, T t → t.validate = .error err → E (.invalidTemplate err)
  dangling : ∀ {s t id}, I s → T t → s.record.currentStep = some id → ¬ t.Knows (some id) →
    E (.danglingStep id)

theorem EngineError.Permits.any (T : Template → Prop) (I : Session σ → Prop) :
    Permits T I fun _ => True := by
  constructor <;> intros <;> trivial

/-! ### Actions -/

namespace Action

open Work

/-- What holds behind an action: the property, and what is known of a result or permitted as an
error. -/
def Sound (I : Session σ → Prop) (E : EngineError → Prop) (Q : α → Prop) :
    Except EngineError α × Session σ → Prop
  | (.ok a, s) => I s ∧ Q a
  | (.error err, s) => I s ∧ E err

/-- The action keeps the property and comes to what is known or permitted. -/
def Ensures (I : Session σ → Prop) (E : EngineError → Prop) (Q : α → Prop) (act : Action σ α) :
    Prop :=
  ∀ s, I s → Sound I E Q (act s)

/-- The action keeps the property, and there is nothing to know of its result. -/
abbrev Upholds (I : Session σ → Prop) (E : EngineError → Prop) (act : Action σ α) : Prop :=
  Ensures I E (fun _ => True) act

variable {I : Session σ → Prop} {E : EngineError → Prop} {Q : α → Prop} {R : β → Prop}

theorem Sound.property {final : Except EngineError α × Session σ} (h : Sound I E Q final) :
    I final.2 := by
  match final with
  | (.ok _, _) => exact h.1
  | (.error _, _) => exact h.1

theorem Sound.permitted {final : Except EngineError α × Session σ} (h : Sound I E Q final)
    {err : EngineError} (herr : final.1 = .error err) : E err := by
  match final with
  | (.ok _, _) => exact nomatch herr
  | (.error _, _) =>
    obtain rfl := Except.error.inj herr
    exact h.2

theorem Ensures.bind {x : Action σ α} {f : α → Action σ β} (hx : Ensures I E Q x)
    (hf : ∀ a, Q a → Ensures I E R (f a)) : Ensures I E R (x >>= f) := by
  intro s h
  have hbehind := hx s h
  rw [bind_apply]
  match hresult : x s with
  | (.ok a, s') =>
    rw [hresult] at hbehind
    exact hf a hbehind.2 s' hbehind.1
  | (.error err, s') =>
    rw [hresult] at hbehind
    exact hbehind

theorem Upholds.bind {x : Action σ α} {f : α → Action σ β} (hx : Upholds I E x)
    (hf : ∀ a, Ensures I E R (f a)) : Ensures I E R (x >>= f) :=
  Ensures.bind hx fun a _ => hf a

theorem ensures_pure {a : α} (ha : Q a) : Ensures I E Q (pure a : Action σ α) := fun _ h => ⟨h, ha⟩

theorem ensures_throw {err : EngineError} (herr : E err) :
    Ensures I E Q (throw err : Action σ α) := fun _ h => ⟨h, herr⟩

theorem upholds_record : Upholds I E (record : Action σ CaseRecord) := fun _ h => ⟨h, trivial⟩

end Action

namespace Engine.Upkeep

open Work Casework.Action

variable {e : Engine σ} {T : Template → Prop} {I : Session σ → Prop} {E : EngineError → Prop}
  {Q : α → Prop} {t : Template} {step : Step} {s s' : Session σ}

theorem upholds_now (keep : Upkeep e T I) : Upholds I E (sure World.now : Action σ Time) :=
  fun _ h => ⟨keep.ticked h, trivial⟩

theorem upholds_turn (keep : Upkeep e T I) {f : CaseRecord → CaseRecord}
    (horigin : ∀ r, (f r).origin = r.origin) (hexecutions : ∀ r, (f r).executions = r.executions)
    (hcurrent : ∀ r, (f r).currentStep = r.currentStep) :
    Upholds I E (update f : Action σ Unit) :=
  fun _ h => ⟨keep.turned h (horigin _) (hexecutions _) (hcurrent _), trivial⟩

theorem upholds_direct (keep : Upkeep e T I) (ht : T t) {next : Option String}
    (hnext : t.Knows next) :
    Upholds I E (update ({ · with currentStep := next }) : Action σ Unit) :=
  fun _ h => ⟨keep.directed h ht hnext, trivial⟩

/-! ### Moves of a case -/

theorem become (keep : Upkeep e T I) (h : I s) (status : CaseStatus) : I (s.become status) :=
  keep.turned (keep.ticked h) rfl rfl rfl

theorem savedBehind (keep : Upkeep e T I) (h : I s) : I s.saved := by
  have hstamped := keep.turned (r := { s.record with updatedAt := s.now }) (keep.ticked h) rfl rfl rfl
  exact keep.saved hstamped

theorem upholds_transition (keep : Upkeep e T I) (permits : EngineError.Permits T I E)
    (next : CaseStatus) : Upholds I E (transition next : Action σ Unit) := by
  refine upholds_record.bind fun r => ?_
  by_cases hlegal : r.status.canBecome next
  · simp only [hlegal, if_true]
    exact keep.upholds_now.bind fun now =>
      keep.upholds_turn (fun _ => rfl) (fun _ => rfl) fun _ => rfl
  · simp only [hlegal, if_false, Bool.false_eq_true]
    exact ensures_throw (permits.refusal rfl)

theorem upholds_save (keep : Upkeep e T I) (permits : EngineError.Permits T I E) :
    Upholds I E (save : Action σ Unit) := by
  intro s h
  obtain ⟨outage, hcalm, hsaved | hlost⟩ := save_cases s
  · rw [hsaved]
    exact ⟨keep.asked (keep.savedBehind h) hcalm, trivial⟩
  · rw [hlost]
    have hstamped :=
      keep.turned (r := { s.record with updatedAt := s.now }) (keep.ticked h) rfl rfl rfl
    exact ⟨keep.asked hstamped hcalm, permits.lost _⟩

theorem upholds_fail (keep : Upkeep e T I) (permits : EngineError.Permits T I E)
    (message : String) : Upholds I E (fail message : Action σ Unit) :=
  .bind (keep.upholds_turn (fun _ => rfl) (fun _ => rfl) fun _ => rfl) fun _ =>
    (keep.upholds_transition permits _).bind fun _ => keep.upholds_save permits

theorem ensures_failWith (keep : Upkeep e T I) (permits : EngineError.Permits T I E)
    {err : EngineError} (herr : E err) : Ensures I E Q (failWith err : Action σ α) :=
  (keep.upholds_fail permits _).bind fun _ => ensures_throw herr

/-- What is taken over from the store is as good as what was at hand. -/
theorem upholds_adoptCancellation (keep : Upkeep e T I) (permits : EngineError.Permits T I E) :
    Upholds I E (adoptCancellation : Action σ Bool) := by
  intro s h
  obtain ⟨outage, hcalm, ⟨-, hlive⟩ | ⟨call, hlost⟩ | ⟨r, hr, hadopted⟩⟩ := adoptCancellation_cases s
  · rw [hlive]
    exact ⟨keep.asked h hcalm, trivial⟩
  · rw [hlost]
    exact ⟨keep.asked h hcalm, permits.lost call⟩
  · rw [hadopted]
    exact ⟨keep.asked (keep.adopted h hr.1) hcalm, trivial⟩

theorem ensures_template (keep : Upkeep e T I) (permits : EngineError.Permits T I E) :
    Ensures I E (fun t => T t ∧ t.validate = .ok ()) (template : Action σ Template) := by
  intro s h
  rw [template, bind_of_ok (record_apply s)]
  simp only [Attempt.template?]
  obtain ⟨outage, hcalm, hreached | hlost⟩ := Attempt.ask_cases .loadTemplate
    (·.template? s.record.templateId s.record.templateVersion) s.world
  · have hasked := keep.asked h hcalm
    rw [bind_of_ok (ofAttempt_of_ok hreached)]
    cases hfound : s.world.store.template? s.record.templateId s.record.templateVersion with
    | none => exact keep.ensures_failWith permits (permits.missing h hfound) _ hasked
    | some t =>
      have ht := keep.found h hfound
      cases hvalid : t.validate with
      | error err =>
        simp only [hvalid]
        exact keep.ensures_failWith permits (permits.invalid ht hvalid) _ hasked
      | ok _ =>
        simp only [hvalid]
        exact ⟨hasked, ht, hvalid⟩
  · rw [bind_of_error (ofAttempt_of_error hlost)]
    exact ⟨keep.asked h hcalm, permits.lost _⟩

theorem upholds_complete (keep : Upkeep e T I) (permits : EngineError.Permits T I E) (ht : T t) :
    Upholds I E (complete : Action σ Unit) :=
  (keep.upholds_direct ht t.knows_none).bind fun _ =>
    (keep.upholds_transition permits _).bind fun _ => keep.upholds_save permits

/-! ### Visits -/

/-- Behind a visit one goes on to a step of the template, or to the end. -/
def Known (t : Template) : Next → Prop
  | .stop => True
  | .goOn next _ => t.Knows next

open Visit

theorem ensures_advance (keep : Upkeep e T I) (permits : EngineError.Permits T I E) (ht : T t)
    {next : Option String} (hnext : t.Knows next) (viaFailure : Bool) :
    Ensures I E (Known t) (advance next viaFailure : Action σ Next) :=
  (keep.upholds_direct ht hnext).bind fun _ =>
    (keep.upholds_save permits).bind fun _ => ensures_pure hnext

theorem ensures_withoutExecutor (keep : Upkeep e T I) (permits : EngineError.Permits T I E)
    (ht : T t) (step : Step) (viaFailure : Bool) :
    Ensures I E (Known t) (withoutExecutor (.ofTemplate t) step viaFailure : Action σ Next) := by
  rw [withoutExecutor]
  by_cases hvia : viaFailure
  · rw [if_pos hvia]
    exact keep.ensures_failWith permits (permits.noExecutor _ _)
  rw [if_neg hvia]
  by_cases hrequired : step.required
  · rw [if_pos hrequired]
    exact (keep.upholds_fail permits _).bind fun _ => ensures_pure trivial
  · rw [if_neg hrequired]
    intro s h
    let execution : Execution := (Execution.new (s.world.ids s.world.drawn) step).skip
      ("No executor registered for step type " ++ step.type.name) s.drawn.now
    have hextended : I (s.drawn.ticked.extended execution) := keep.extended h rfl (.inl rfl)
    rw [bind_of_ok (newId_apply s), bind_of_ok (now_apply s.drawn),
      bind_of_ok (extend_apply execution s.drawn.ticked)]
    exact keep.ensures_advance permits ht (StepGraph.knows_nextInOrder t step) false _ hextended

theorem upholds_breakOff (keep : Upkeep e T I) (permits : EngineError.Permits T I E)
    (execution : Execution) : Upholds I E (breakOff execution : Action σ Unit) := by
  intro s h
  rw [breakOff, bind_of_ok (record_apply s)]
  cases s.record.executions.findIdx? fun e => e.id == execution.id with
  | none => exact ⟨h, trivial⟩
  | some place =>
    by_cases hrunning : s.record.executions[place]?.any (·.status == .running)
    · simp only [if_pos hrunning]
      rw [bind_of_ok (settle_apply ..)]
      exact keep.upholds_save permits _
        (keep.matured (keep.ticked h) (Execution.forall₂_fail hrunning _ _))
    · simp only [if_neg hrunning]
      exact ⟨h, trivial⟩

/-- The execution of the step, which is the last one, takes on what has come of it. -/
theorem settledBehind (keep : Upkeep e T I) (h : I s) (h' : I s')
    (hbegun : s'.record = (s.begun step).record) {f : Execution → Time → Execution}
    (hid : ∀ x now, (f x now).id = x.id) (hinput : ∀ x now, (f x now).input = x.input) :
    I (s'.settled s.record.executions.length f) := by
  have hexecutions : s'.record.executions = s.record.executions ++ [s.execution step] := by
    rw [hbegun]
    rfl
  rw [Session.settled, hexecutions, modify_length_append]
  exact keep.settled h (keep.ticked h') hbegun (hid ..) (hinput ..)

theorem sound_apply (keep : Upkeep e T I) (permits : EngineError.Permits T I E) (ht : T t)
    (hvalid : t.validate = .ok ()) (hstep : step ∈ t.steps) (h : I s) (h' : I s')
    (hbegun : s'.record = (s.begun step).record) (o : Outcome) :
    Sound I E (Known t) (apply (.ofTemplate t) step s.record.executions.length o s') := by
  have hsuccess := StepGraph.knows_afterSuccess hvalid hstep
  cases o with
  | pause output =>
    rw [apply, bind_of_ok (settle_apply ..)]
    have hsettled := keep.settledBehind h h' hbegun (f := (·.complete output)) (fun _ _ => rfl)
      fun _ _ => rfl
    refine Upholds.bind (keep.upholds_direct ht hsuccess) (fun _ => ?_) _ hsettled
    exact (keep.upholds_transition permits _).bind fun _ =>
      (keep.upholds_save permits).bind fun _ => ensures_pure trivial
  | success output =>
    rw [apply, bind_of_ok (settle_apply ..)]
    have hsettled := keep.settledBehind h h' hbegun (f := (·.complete output)) (fun _ _ => rfl)
      fun _ _ => rfl
    exact keep.ensures_advance permits ht hsuccess false _ hsettled
  | failure message =>
    rw [apply, bind_of_ok (settle_apply ..)]
    have hsettled := keep.settledBehind h h' hbegun (f := (·.fail message)) (fun _ _ => rfl)
      fun _ _ => rfl
    cases hfailure : step.onFailure with
    | some target =>
      have htarget := StepGraph.knows_of_onFailure hvalid hstep hfailure
      exact keep.ensures_advance permits ht htarget true _ hsettled
    | none =>
      by_cases hrequired : step.required
      · simp only [if_pos hrequired]
        exact Upholds.bind (keep.upholds_fail permits _) (fun _ => ensures_pure trivial) _ hsettled
      · simp only [if_neg hrequired]
        exact keep.ensures_advance permits ht (StepGraph.knows_nextInOrder t step) false _ hsettled

theorem ensures_withExecutor (keep : Upkeep e T I) (permits : EngineError.Permits T I E) (ht : T t)
    (hvalid : t.validate = .ok ()) (hstep : step ∈ t.steps) {x : Executor σ}
    (hx : e.registry.executor? step.type = some x) :
    Ensures I E (Known t) (withExecutor (.ofTemplate t) step x) := by
  intro s h
  have hextended : I (s.drawn.ticked.extended (s.execution step)) := keep.extended h rfl (.inr rfl)
  rw [withExecutor, bind_of_ok (record_apply s)]
  obtain ⟨outage, hcalm, hbegun | hlost⟩ := begin_cases s step
  · let s' : Session σ := { s.begun step with world := { (s.begun step).world with outage } }
    let answer := x step (s.execution step) s'.record s'.world
    let behind : Session σ := { s' with world := answer.2 }
    have hs' : I s' := keep.asked (keep.savedBehind hextended) hcalm
    have hbehind : I behind := keep.called h hs' hx
    have hcall : Action.sure (x step (s.execution step) s'.record) s' = (.ok answer.1, behind) := rfl
    rw [bind_of_ok hbegun, bind_of_ok (record_apply s'), bind_of_ok hcall]
    obtain ⟨outage', hcalm', ⟨-, hlive⟩ | ⟨call, hlost⟩ | ⟨r, hr, hadopted⟩⟩ :=
      adoptCancellation_cases behind
    · rw [bind_of_ok hlive]
      exact keep.sound_apply permits ht hvalid hstep h (keep.asked hbehind hcalm') rfl _
    · rw [bind_of_error hlost]
      exact ⟨keep.asked hbehind hcalm', permits.lost call⟩
    · rw [bind_of_ok hadopted]
      refine Upholds.bind (keep.upholds_breakOff permits _) (fun _ => ensures_pure trivial) _ ?_
      exact keep.asked (keep.adopted hbehind hr.1) hcalm'
  · rw [bind_of_error hlost]
    have hstamped := keep.turned (r := (s.begun step).record) (keep.ticked hextended) rfl rfl rfl
    exact ⟨keep.asked hstamped hcalm, permits.lost _⟩

theorem ensures_visit (keep : Upkeep e T I) (permits : EngineError.Permits T I E) (ht : T t)
    (hvalid : t.validate = .ok ()) (hstep : step ∈ t.steps) (viaFailure : Bool) :
    Ensures I E (Known t) (e.visit (.ofTemplate t) step viaFailure) := by
  refine (keep.upholds_direct ht (Template.knows_id hstep)).bind fun _ => ?_
  cases hx : e.registry.executor? step.type with
  | none => exact keep.ensures_withoutExecutor permits ht step viaFailure
  | some x => exact keep.ensures_withExecutor permits ht hvalid hstep hx

/-! ### Runs and commands -/

/-- A run in a valid template never comes to a step that is not there. -/
theorem upholds_runFrom (keep : Upkeep e T I) (permits : EngineError.Permits T I E) (ht : T t)
    (hvalid : t.validate = .ok ()) (left : Nat) (viaFailure : Bool) {id : String}
    (hid : t.Knows (some id)) : Upholds I E (e.runFrom (.ofTemplate t) left viaFailure id) := by
  induction left generalizing viaFailure id with
  | zero =>
    rw [runFrom]
    refine (keep.upholds_adoptCancellation permits).bind fun cancelled => ?_
    cases cancelled with
    | true => exact ensures_pure trivial
    | false =>
      obtain ⟨step, hfound⟩ := StepGraph.exists_step?_of_knows hid
      simp only [hfound]
      exact keep.ensures_failWith permits (permits.tooManyVisits _)
  | succ left ih =>
    rw [runFrom]
    refine (keep.upholds_adoptCancellation permits).bind fun cancelled => ?_
    cases cancelled with
    | true => exact ensures_pure trivial
    | false =>
      obtain ⟨step, hfound⟩ := StepGraph.exists_step?_of_knows hid
      obtain ⟨hstep, -⟩ := StepGraph.mem_of_step? hfound
      simp only [hfound]
      refine (keep.ensures_visit permits ht hvalid hstep viaFailure).bind fun next hnext => ?_
      cases next with
      | stop => exact ensures_pure trivial
      | goOn next via =>
        cases next with
        | none => exact keep.upholds_complete permits ht
        | some next => exact ih via hnext

theorem upholds_run (keep : Upkeep e T I) (permits : EngineError.Permits T I E) (ht : T t)
    (hvalid : t.validate = .ok ()) {first : String} (hfirst : t.Knows (some first)) :
    Upholds I E (e.run t first) :=
  keep.upholds_runFrom permits ht hvalid _ _ hfirst

theorem upholds_start (keep : Upkeep e T I) (permits : EngineError.Permits T I E) :
    Upholds I E e.start := by
  rw [start]
  refine upholds_record.bind fun r => ?_
  by_cases hterminal : r.status.isTerminal
  · simp only [if_pos hterminal]
    exact ensures_throw (permits.refusal rfl)
  simp only [if_neg hterminal]
  by_cases hstarted : r.status ≠ .notStarted
  · simp only [if_pos hstarted]
    exact ensures_throw (permits.refusal rfl)
  simp only [if_neg hstarted]
  refine (keep.ensures_template permits).bind fun t ht => ?_
  cases hordered : t.ordered with
  | nil => exact keep.upholds_complete permits ht.1
  | cons first others =>
    have hfirst : t.Knows (some first.id) :=
      Template.knows_id (Template.mem_ordered.1 (by simp [hordered]))
    refine (keep.upholds_direct ht.1 hfirst).bind fun _ => ?_
    exact (keep.upholds_transition permits _).bind fun _ =>
      (keep.upholds_save permits).bind fun _ => keep.upholds_run permits ht.1 ht.2 hfirst

theorem upholds_settleInterrupted (keep : Upkeep e T I)
    (es : List Execution) : Upholds I E (settleInterrupted es : Action σ (List Execution)) := by
  induction es with
  | nil => exact ensures_pure trivial
  | cons x es ih =>
    rw [settleInterrupted]
    by_cases hrunning : x.status = .running
    · simp only [if_pos hrunning]
      exact keep.upholds_now.bind fun _ => ih.bind fun _ => ensures_pure trivial
    · simp only [if_neg hrunning]
      exact ih.bind fun _ => ensures_pure trivial

/-- Where an interrupted case is taken up, the executions that were under way have failed. -/
theorem interruptionSettled (keep : Upkeep e T I) (h : I s) : ∃ executions readings,
    settleInterrupted s.record.executions s =
        (.ok executions, { s with world := { s.world with readings } }) ∧
      I ⟨{ s.record with executions }, { s.world with readings }⟩ := by
  obtain ⟨executions, readings, hsettle, hmatures, -⟩ :=
    settleInterrupted_apply s.record.executions s
  have hbehind := keep.upholds_settleInterrupted (E := fun _ => True) s.record.executions s h
  rw [hsettle] at hbehind
  exact ⟨executions, readings, hsettle, keep.matured hbehind.1 hmatures⟩

theorem upholds_resume (keep : Upkeep e T I) (permits : EngineError.Permits T I E) :
    Upholds I E e.resume := by
  rw [resume]
  refine upholds_record.bind fun r => ?_
  by_cases hterminal : r.status.isTerminal
  · simp only [if_pos hterminal]
    exact ensures_throw (permits.refusal rfl)
  simp only [if_neg hterminal]
  by_cases hnew : r.status = .notStarted
  · simp only [if_pos hnew]
    exact ensures_throw (permits.refusal rfl)
  simp only [if_neg hnew]
  refine (keep.ensures_template permits).bind fun t ht s h => ?_
  obtain ⟨ht, hvalid⟩ := ht
  rw [bind_of_ok (record_apply s)]
  cases hcurrent : s.record.currentStep with
  | none => exact keep.upholds_complete permits ht s h
  | some id =>
    by_cases hdangling : (t.step? id).isNone
    · simp only [if_pos hdangling]
      have hunknown : ¬ t.Knows (some id) := by
        rw [Template.knows_iff_step?, ← Option.not_isNone, hdangling]
        exact Bool.false_ne_true
      have herr := permits.dangling h ht hcurrent hunknown
      exact Ensures.bind (keep.ensures_failWith permits herr) (fun _ h => False.elim h) s h
    have hid : t.Knows (some id) := by
      rw [Template.knows_iff_step?, ← Option.not_isNone, eq_false_of_ne_true hdangling]
      rfl
    obtain ⟨executions, readings, hsettle, hsettled⟩ := keep.interruptionSettled h
    let read : Session σ := { s with world := { s.world with readings } }
    have hupdate : update ({ · with executions }) read =
      (.ok (), { read with record := { s.record with executions } }) := rfl
    simp only [if_neg hdangling]
    rw [bind_of_ok (record_apply s), bind_of_ok hsettle, bind_of_ok hupdate]
    refine (?_ : Upholds I E _) _ hsettled
    by_cases hpaused : r.status = .paused
    · simp only [if_pos hpaused]
      exact (keep.upholds_transition permits _).bind fun _ =>
        (keep.upholds_save permits).bind fun _ => keep.upholds_run permits ht hvalid hid
    · simp only [if_neg hpaused]
      exact (keep.upholds_save permits).bind fun _ => keep.upholds_run permits ht hvalid hid

theorem upholds_cancel (keep : Upkeep e T I) (permits : EngineError.Permits T I E)
    (reason : Option String) : Upholds I E (cancel reason : Action σ Unit) := by
  rw [cancel]
  refine upholds_record.bind fun r => ?_
  by_cases hterminal : r.status.isTerminal
  · simp only [if_pos hterminal]
    exact ensures_throw (permits.refusal rfl)
  simp only [if_neg hterminal]
  refine (keep.upholds_transition permits _).bind fun _ => ?_
  exact Upholds.bind (keep.upholds_turn (fun _ => rfl) (fun _ => rfl) fun _ => rfl) fun _ =>
    keep.upholds_save permits

/-- Whatever is kept by the moves is kept by every command. -/
theorem upholds_command (keep : Upkeep e T I) (permits : EngineError.Permits T I E) :
    ∀ command : Command, Upholds I E (command.act e)
  | .launch .start => keep.upholds_start permits
  | .launch .resume => keep.upholds_resume permits
  | .cancel reason => keep.upholds_cancel permits reason

end Engine.Upkeep

end Casework
