import Casework.Proofs.Context.Latest
import Casework.Proofs.Engine.Lifetime
import Casework.Proofs.Engine.Passage

/-!
# From a step to the next

An execution that has been completed hands its output over to whatever step starts next, as long as
nothing else is completed meanwhile: the output is the last entry of the context that this step is
shown. Whether calls to the store are lost on the way does not matter.
-/

namespace Casework

variable {σ α β : Type}

/-- The executor only looks at the world, and replies to what it sees. -/
def Executor.Looks (x : Executor σ) (reply : Store → Step → Execution → CaseRecord → Reply) :
    Prop :=
  ∀ step execution record w, x step execution record w = (reply w.store step execution record, w)

/-- The execution is completed, with this output. -/
def Outcome.Completes (o : Outcome) (output : Option String) : Prop :=
  o = .success output ∨ o = .pause output

namespace Reply

variable {output : Option String}

theorem completes_succeeded {text : String}
    (h : (Reply.result (.succeeded text)).outcome.Completes output) : output = some text := by
  rcases h with h | h
  · exact (Outcome.success.inj h).symm
  · exact nomatch h

theorem not_completes_failed (message : String) :
    ¬ (Reply.result (.failed message)).outcome.Completes output := by
  rintro (h | h) <;> exact nomatch h

theorem not_completes_error (causes : List String) :
    ¬ (Reply.error causes).outcome.Completes output := by
  rintro (h | h) <;> exact nomatch h

end Reply

/-! ### What leaves the executions alone -/

/-- The session is of the case, which has been through these executions. -/
structure Session.Has (origin : CaseRecord.Origin) (es : List Execution) (s : Session σ) :
    Prop where
  origin : s.record.origin = origin
  executions : s.record.executions = es

/-- What has been executed last has not been completed. -/
def Session.Incomplete (s : Session σ) : Prop :=
  ∀ x ∈ s.record.executions.getLast?, x.status ≠ .completed

namespace Action

open Work

variable {origin : CaseRecord.Origin} {es : List Execution} {s : Session σ}

theorem Sound.imp {I J : Session σ → Prop} {E : EngineError → Prop} {Q : α → Prop}
    {final : Except EngineError α × Session σ} (h : Sound I E Q final) (hIJ : ∀ s, I s → J s) :
    Sound J E Q final := by
  match final with
  | (.ok _, s) => exact ⟨hIJ s h.1, h.2⟩
  | (.error _, s) => exact ⟨hIJ s h.1, h.2⟩

/-- The action leaves the case and its executions as they are, whether it succeeds or fails. -/
def Leaves (act : Action σ α) : Prop :=
  ∀ origin es, Upholds (Session.Has origin es) (fun _ => True) act

theorem leaves_update {f : CaseRecord → CaseRecord} (horigin : ∀ r, (f r).origin = r.origin)
    (hexecutions : ∀ r, (f r).executions = r.executions) :
    Leaves (update f : Action σ Unit) :=
  fun _ _ _ h => ⟨⟨(horigin _).trans h.origin, (hexecutions _).trans h.executions⟩, trivial⟩

theorem leaves_now : Leaves (sure World.now : Action σ Time) :=
  fun _ _ _ h => ⟨⟨h.origin, h.executions⟩, trivial⟩

theorem Leaves.bind {x : Action σ α} {f : α → Action σ β} (hx : Leaves x)
    (hf : ∀ a, Leaves (f a)) : Leaves (x >>= f) :=
  fun origin es => Upholds.bind (hx origin es) fun a => hf a origin es

theorem leaves_pure (a : α) : Leaves (pure a : Action σ α) := fun _ _ => ensures_pure trivial

theorem leaves_transition (next : CaseStatus) : Leaves (transition next : Action σ Unit) := by
  refine Leaves.bind (fun _ _ => upholds_record) fun r => ?_
  by_cases hlegal : r.status.canBecome next
  · simp only [hlegal, if_true]
    exact leaves_now.bind fun now => leaves_update (fun _ => rfl) fun _ => rfl
  · simp only [hlegal, if_false, Bool.false_eq_true]
    exact fun _ _ => ensures_throw trivial

theorem leaves_save : Leaves (save : Action σ Unit) := by
  intro origin es s h
  obtain ⟨outage, -, hsaved | hlost⟩ := save_cases s
  · rw [hsaved]
    exact ⟨⟨h.origin, h.executions⟩, trivial⟩
  · rw [hlost]
    exact ⟨⟨h.origin, h.executions⟩, trivial⟩

theorem leaves_fail (message : String) : Leaves (fail message : Action σ Unit) :=
  .bind (leaves_update (fun _ => rfl) fun _ => rfl) fun _ =>
    (leaves_transition _).bind fun _ => leaves_save

theorem leaves_advance (next : Option String) (viaFailure : Bool) :
    Leaves (Engine.Visit.advance next viaFailure : Action σ Engine.Next) :=
  .bind (leaves_update (fun _ => rfl) fun _ => rfl) fun _ =>
    leaves_save.bind fun _ => leaves_pure _

theorem Leaves.upholds_incomplete {act : Action σ α} (h : Leaves act) :
    Upholds Session.Incomplete (fun _ => True) act := by
  intro s hs
  refine (h s.record.origin s.record.executions s ⟨rfl, rfl⟩).imp fun s' hs' => ?_
  rw [Session.Incomplete, hs'.executions]
  exact hs

theorem Leaves.has {act : Action σ α} (h : Leaves act) (hs : s.Has origin es) :
    (act s).2.Has origin es :=
  (h origin es s hs).property

end Action

/-! ### The execution behind a visit -/

namespace Engine

open Work Casework.Action

variable {e : Engine σ} {g : StepGraph} {step : Step} {s : Session σ} {es : List Execution}
  {x : Execution} {executor : Executor σ} {reply : Store → Step → Execution → CaseRecord → Reply}

namespace Visit

theorem settled_has {origin : CaseRecord.Origin} (h : s.Has origin (es ++ [x]))
    (f : Execution → Time → Execution) :
    (s.settled es.length f).Has origin (es ++ [f x s.now]) where
  origin := h.origin
  executions := by
    rw [Session.settled, h.executions]
    exact modify_length_append es x _

/-- The last execution takes on what has come of it, and the case stays with that. -/
theorem apply_has (g : StepGraph) (step : Step) {origin : CaseRecord.Origin}
    (h : s.Has origin (es ++ [x])) (o : Outcome) :
    ∃ y, (apply g step es.length o s).2.Has origin (es ++ [y]) ∧
      ((∃ output now, o.Completes output ∧ y = x.complete output now) ∨
        ∃ message now, y = x.fail message now) := by
  cases o with
  | pause output =>
    have hsettled := settled_has h (·.complete output)
    refine ⟨_, ?_, .inl ⟨output, s.now, .inr rfl, rfl⟩⟩
    rw [apply, bind_of_ok (settle_apply ..)]
    refine Leaves.has (.bind (leaves_update (fun _ => rfl) fun _ => rfl) fun _ => ?_) hsettled
    exact (leaves_transition _).bind fun _ => leaves_save.bind fun _ => leaves_pure _
  | success output =>
    have hsettled := settled_has h (·.complete output)
    refine ⟨_, ?_, .inl ⟨output, s.now, .inl rfl, rfl⟩⟩
    rw [apply, bind_of_ok (settle_apply ..)]
    exact (leaves_advance _ _).has hsettled
  | failure message =>
    have hsettled := settled_has h (·.fail message)
    refine ⟨_, ?_, .inr ⟨message, s.now, rfl⟩⟩
    rw [apply, bind_of_ok (settle_apply ..)]
    cases step.onFailure with
    | some target => exact (leaves_advance _ _).has hsettled
    | none =>
      by_cases hrequired : step.required
      · simp only [if_pos hrequired]
        exact ((leaves_fail _).bind fun _ => leaves_pure _).has hsettled
      · simp only [if_neg hrequired]
        exact (leaves_advance _ _).has hsettled

theorem getLast?_modify (es : List Execution) (place : Nat) (f : Execution → Execution) :
    (es.modify place f).getLast? = es.getLast? ∨
      (es.modify place f).getLast? = es.getLast?.map f := by
  rw [List.getLast?_eq_getElem?, List.getLast?_eq_getElem?, List.length_modify,
    List.getElem?_modify]
  by_cases h : place = es.length - 1
  · exact .inr (by simp [h])
  · exact .inl (by simp [h])

/-- What is broken off has not been completed. -/
theorem breakOff_incomplete (execution : Execution) :
    Upholds Session.Incomplete (fun _ => True) (breakOff execution : Action σ Unit) := by
  intro s hlast
  rw [breakOff, bind_of_ok (record_apply s)]
  cases s.record.executions.findIdx? fun y => y.id == execution.id with
  | none => exact ⟨hlast, trivial⟩
  | some place =>
    by_cases hrunning : s.record.executions[place]?.any (·.status == .running)
    · simp only [if_pos hrunning]
      rw [bind_of_ok (settle_apply ..)]
      refine leaves_save.upholds_incomplete _ fun y hy => ?_
      rcases getLast?_modify s.record.executions place
        (·.fail "Cancelled during execution" s.now) with hsame | hfailed
      · exact hlast y (hsame ▸ hy)
      · obtain ⟨z, -, rfl⟩ := Option.map_eq_some_iff.1 (hfailed ▸ hy)
        intro hcompleted
        cases hcompleted
    · simp only [if_neg hrunning]
      exact ⟨hlast, trivial⟩

theorem begun_incomplete (s : Session σ) (step : Step) : (s.begun step).Incomplete := by
  intro y hy
  have hlast : (s.begun step).record.executions.getLast? = some (s.execution step) :=
    List.getLast?_append_of_ne_nil _ (List.cons_ne_nil _ _)
  obtain rfl := Option.some.inj (hlast.symm.trans hy)
  intro hcompleted
  cases hcompleted

/-- If the last execution behind a step has been completed, it is that of the step, with what the
executor has replied. -/
theorem withExecutor_completed (hlooks : executor.Looks reply)
    (hlast : (withExecutor g step executor s).2.record.executions.getLast? = some x)
    (hcompleted : x.status = .completed) : ∃ output now,
      (withExecutor g step executor s).2.Has s.record.origin (s.record.executions ++ [x]) ∧
      x = (s.execution step).complete output now ∧
      (reply (s.begun step).world.store step (s.execution step)
        (s.begun step).record).outcome.Completes output := by
  have hbegun_last := begun_incomplete s step
  rw [withExecutor, bind_of_ok (record_apply s)] at hlast ⊢
  obtain ⟨outage, -, hbegun | hlost⟩ := begin_cases s step
  · let begun : Session σ := { s.begun step with world := { (s.begun step).world with outage } }
    have hcall : Action.sure (executor step (s.execution step) begun.record) begun =
        (.ok (reply begun.world.store step (s.execution step) begun.record), begun) := by
      refine ofAttempt_of_ok (s := begun) (w := begun.world) ?_
      rw [Attempt.sure, hlooks]
    rw [bind_of_ok hbegun, bind_of_ok (record_apply begun), bind_of_ok hcall] at hlast ⊢
    obtain ⟨outage', -, ⟨-, hlive⟩ | ⟨call, hlost⟩ | ⟨r, hr, hadopted⟩⟩ :=
      adoptCancellation_cases begun
    · let behind : Session σ := { begun with world := { begun.world with outage := outage' } }
      have hbehind : behind.Has s.record.origin (s.record.executions ++ [s.execution step]) :=
        ⟨rfl, rfl⟩
      rw [bind_of_ok hlive] at hlast ⊢
      obtain ⟨y, hy, houtcome⟩ := apply_has g step hbehind
        (reply begun.world.store step (s.execution step) begun.record).outcome
      have hsame : y = x := by
        have hall := hy.executions ▸ hlast
        simpa using hall
      subst hsame
      rcases houtcome with ⟨output, now, houtcome, hx⟩ | ⟨message, now, hx⟩
      · exact ⟨output, now, hy, hx, houtcome⟩
      · rw [hx] at hcompleted
        cases hcompleted
    · rw [bind_of_error hlost] at hlast
      exact absurd hcompleted (hbegun_last x hlast)
    · rw [bind_of_ok hadopted] at hlast
      have hstored : begun.world.store.record? begun.record.id = some begun.record :=
        Session.saved_stored _
      obtain rfl : begun.record = r := Option.some.inj (hstored.symm.trans hr.1)
      have hbroken : Upholds Session.Incomplete (fun _ => True)
          (do breakOff (s.execution step); return Next.stop : Action σ Next) :=
        (breakOff_incomplete _).bind fun _ => ensures_pure trivial
      refine absurd hcompleted ((hbroken _ ?_).property x hlast)
      exact hbegun_last
  · rw [bind_of_error hlost] at hlast
    exact absurd hcompleted (hbegun_last x hlast)

theorem begin_of_ok {s' : Session σ} (h : begin step s = (.ok x, s')) : x = s.execution step := by
  obtain ⟨outage, -, hbegun | hlost⟩ := begin_cases s step
  · rw [hbegun] at h
    exact (Except.ok.inj (congrArg Prod.fst h)).symm
  · rw [hlost] at h
    cases h

/-! ### A step that succeeds -/

/-- The session behind a step that has succeeded without a change of the world. -/
def succeededIn (g : StepGraph) (s : Session σ) (step : Step) (output : Option String) :
    Session σ :=
  ((settledIn s step ((s.directed (some step.id)).begun step).world (·.complete output)).directed
    (g.afterSuccess step)).saved

theorem succeededIn_executions (g : StepGraph) (s : Session σ) (step : Step)
    (output : Option String) : (succeededIn g s step output).record.executions =
      s.record.executions ++ [((s.directed (some step.id)).execution step).complete output
        ((s.directed (some step.id)).begun step).now] :=
  settledIn_executions s step _ (·.complete output)

end Visit

theorem visit_of_success (hexecutor : e.registry.executor? step.type = some executor)
    (hlooks : executor.Looks reply) (hcalm : s.world.outage = none)
    (hrunning : s.record.status = .running) {output : Option String}
    (houtcome : let entered := s.directed (some step.id)
      (reply (entered.begun step).world.store step (entered.execution step)
        (entered.begun step).record).outcome = .success output)
    (g : StepGraph) (viaFailure : Bool) :
    e.visit g step viaFailure s =
      (.ok (.goOn (g.afterSuccess step) false), Visit.succeededIn g s step output) := by
  let begun := (s.directed (some step.id)).begun step
  have hlive : begun.world.store.status? s.record.id ≠ some .cancelled :=
    Session.Stored.live_of_running (s := begun) (Session.saved_stored _) hrunning
  have hsettled : (Visit.settledIn s step begun.world (·.complete output)).world.outage = none :=
    hcalm
  have hanswer := hlooks step ((s.directed (some step.id)).execution step) begun.record begun.world
  have hentered := @Visit.withExecutor_of_live σ g step s executor hcalm
  simp only [begun] at hanswer
  simp only [hanswer] at hentered
  rw [visit, bind_of_ok (direct_apply _ s), hexecutor]
  simp only
  rw [hentered hcalm hlive, houtcome, Visit.apply, bind_of_ok (Visit.settleIn_apply ..)]
  exact Visit.advance_apply hsettled _ false

/-! ### From one execution to another -/

theorem Passes.grows {p q : Point σ} (he : e.registry.Calm) (h : e.Passes g p q)
    (hp : p.session.Underway) : p.session.record.Grows q.session.record := by
  induction h with
  | here => exact .refl _
  | visit _ hvisit _ ih =>
    obtain ⟨-, x, hexecutions, -⟩ := goOn_cases he hp hvisit
    have hbehind := ih (visit_underway he hp hvisit)
    refine ⟨hbehind.origin.trans (goOn_origin he hp hvisit), .trans ?_ hbehind.executions⟩
    rw [hexecutions]
    exact .append _ _

variable {s₁ s₂ : Session σ} {y : Execution}

/-- From a visit of the step, behind which its execution has been completed, the case has come to
the start of another execution before anything else has been completed. -/
structure Handover (e : Engine σ) (step : Step) (s s₁ s₂ : Session σ) (x y : Execution) : Prop where
  visited : ∃ g viaFailure, (e.visit g step viaFailure s).2 = s₁
  last : s₁.record.executions.getLast? = some x
  completed : x.status = .completed
  grows : s₁.record.Grows s₂.record
  latest : ∀ z ∈ s₂.record.executions.drop s₁.record.executions.length, z.status ≠ .completed
  chronological : Chronological (s₂.record.executions.filter (·.status == .completed))
  starts : ∃ next s₃, Visit.begin next s₂ = (.ok y, s₃)

namespace Handover

/-- The execution has been completed with what the executor has replied. -/
theorem replied (h : e.Handover step s s₁ s₂ x y)
    (hexecutor : e.registry.executor? step.type = some executor) (hlooks : executor.Looks reply) :
    let entered := s.directed (some step.id)
    ∃ output now, s₁.Has s.record.origin (s.record.executions ++ [x]) ∧
      x = (entered.execution step).complete output now ∧
      (reply (entered.begun step).world.store step (entered.execution step)
        (entered.begun step).record).outcome.Completes output := by
  obtain ⟨g, viaFailure, hvisited⟩ := h.visited
  have hlast := h.last
  have hentered : e.visit g step viaFailure s =
      Visit.withExecutor g step executor (s.directed (some step.id)) := by
    rw [visit, bind_of_ok (direct_apply _ s), hexecutor]
  rw [← hvisited, hentered] at hlast ⊢
  obtain ⟨output, now, hhas, hx, houtcome⟩ := Visit.withExecutor_completed hlooks hlast h.completed
  exact ⟨output, now, hhas, hx, houtcome⟩

/-- What has been completed stays as it is, and nothing is completed behind it. -/
theorem exists_between (h : e.Handover step s s₁ s₂ x y) : ∃ before between,
    s₂.record.executions = before ++ x :: between ∧ ∀ z ∈ between, z.status ≠ .completed := by
  have hlast := h.last
  rw [List.getLast?_eq_getElem?] at hlast
  obtain ⟨x', hx', hmatures⟩ := h.grows.executions _ x hlast
  obtain rfl : x' = x := by
    cases hmatures with
    | kept => rfl
    | failed hrunning => exact nomatch hrunning.symm.trans h.completed
  obtain ⟨hlt, hx'⟩ := List.getElem?_eq_some_iff.1 hx'
  refine ⟨s₂.record.executions.take (s₁.record.executions.length - 1),
    s₂.record.executions.drop (s₁.record.executions.length - 1 + 1), ?_, ?_⟩
  · rw [← hx', List.getElem_cons_drop, List.take_append_drop]
  · have hnonempty : s₁.record.executions ≠ [] := by
      intro hempty
      rw [hempty] at hlast
      cases hlast
    rw [Nat.sub_add_cancel (List.length_pos_iff.2 hnonempty)]
    exact h.latest

/-- The output is the last entry of the context that the execution is shown. -/
theorem inputs_eq (h : e.Handover step s s₁ s₂ x y) {output : String}
    (houtput : x.output = some output) (data : Dictionary String) :
    Inputs.ofExecution? y data = some (Inputs.build data ((Context.ofExecutions
      (Context.others x.stepName s₂.record.executions)).insert x.stepName output)) := by
  obtain ⟨next, s₃, hstarts⟩ := h.starts
  obtain ⟨before, between, hexecutions, hbetween⟩ := h.exists_between
  have hchronological := h.chronological
  obtain rfl := Visit.begin_of_ok hstarts
  rw [Inputs.ofExecution?_of_shown s₂.record.executions rfl]
  rw [hexecutions] at hchronological ⊢
  rw [Context.ofExecutions_of_latest h.completed houtput hbetween hchronological]

/-- A step of a run hands over to the one at which the run has come to a later point. -/
theorem of_passes (he : e.registry.Calm) (hs : s.Underway) {viaFailure via : Bool} {left : Nat}
    {next : Option String} {p : Point σ}
    (hvisit : e.visit g step viaFailure s = (.ok (.goOn next via), s₁))
    (hpasses : e.Passes g ⟨left, via, next, s₁⟩ p)
    (hlast : s₁.record.executions.getLast? = some x) (hcompleted : x.status = .completed)
    (hlatest : ∀ z ∈ p.session.record.executions.drop s₁.record.executions.length,
      z.status ≠ .completed)
    (hchronological : Chronological (p.session.record.executions.filter (·.status == .completed)))
    (later : Step) : e.Handover step s s₁ p.session x (p.session.execution later) where
  visited := ⟨g, viaFailure, congrArg Prod.snd hvisit⟩
  last := hlast
  completed := hcompleted
  grows := hpasses.grows he (visit_underway he hs hvisit)
  latest := hlatest
  chronological := hchronological
  starts :=
    have hunderway := hpasses.underway he (visit_underway he hs hvisit)
    ⟨later, _, Visit.begin_apply hunderway.calm later⟩

/-- A step that succeeds hands over to whichever starts behind it at once. -/
theorem of_success (he : e.registry.Calm) (hs : s.Underway)
    (hexecutor : e.registry.executor? step.type = some executor) (hlooks : executor.Looks reply)
    {output : Option String}
    (houtcome : let entered := s.directed (some step.id)
      (reply (entered.begun step).world.store step (entered.execution step)
        (entered.begun step).record).outcome = .success output)
    (g : StepGraph) (next : Step)
    (hchronological : let s' := Visit.succeededIn g s step output
      Chronological (s'.record.executions.filter (·.status == .completed))) :
    let s' := Visit.succeededIn g s step output
    let x := ((s.directed (some step.id)).execution step).complete output
      ((s.directed (some step.id)).begun step).now
    e.Handover step s s' s' x (s'.execution next) := by
  intro s' x
  have hexecutions : s'.record.executions = s.record.executions ++ [x] :=
    Visit.succeededIn_executions ..
  have hvisit := visit_of_success hexecutor hlooks hs.calm hs.running houtcome g false
  refine .of_passes he hs hvisit (.here ⟨0, false, g.afterSuccess step, s'⟩) ?_ rfl ?_
    hchronological next
  · rw [hexecutions]
    exact List.getLast?_concat
  · rw [List.drop_length]
    exact nofun

end Handover

end Engine

end Casework
