import Casework.Proofs.Engine.Moves
import Casework.Proofs.Engine.Launch

/-!
# The points of a run

Between two visits of a run the case is in the store with what has come of its steps and with the
step to go on with, and it is still running. `Passes` leads from one such point of a run to another,
and `Halts` tells what the run comes to at the last of them. From each of its points on it is the
same run.
-/

namespace Casework

variable {σ : Type}

/-- A place of a run between two visits. -/
structure Point (σ : Type) where
  /-- How many visits are left. -/
  left : Nat
  viaFailure : Bool
  next : Option String
  session : Session σ

/-- What holds at each point: the case is on its way, its record says with which step, and no
execution is under way. -/
structure Point.Steady (p : Point σ) : Prop where
  underway : p.session.Underway
  current : p.session.record.currentStep = p.next
  settled : ∀ x ∈ p.session.record.executions, x.status ≠ .running

namespace Engine

open Work Casework.Action

variable {e : Engine σ} {t : Template} {g : StepGraph} {s s' : Session σ} {p q : Point σ}
  {launch : Launch}

/-- The run from one point on passes the other. -/
inductive Passes (e : Engine σ) (g : StepGraph) : Point σ → Point σ → Prop
  | here (p : Point σ) : Passes e g p p
  | visit {left : Nat} {viaFailure via : Bool} {id : String} {step : Step} {next : Option String}
      {s s' : Session σ} {p : Point σ} (hid : g.step? id = some step)
      (hvisit : e.visit g step viaFailure s = (.ok (.goOn next via), s'))
      (h : Passes e g ⟨left, via, next, s'⟩ p) : Passes e g ⟨left + 1, viaFailure, some id, s⟩ p

/-- The run that a command leads to begins at the point. -/
inductive Enters (e : Engine σ) (t : Template) (s : Session σ) : Launch → Point σ → Prop
  | start {first : Step} {others : List Step} (hnew : s.record.status = .notStarted)
      (h : t.ordered = first :: others) :
      Enters e t s .start ⟨e.config.maxVisits, false, some first.id, startedAt s first⟩
  | resume {id : String} (hstatus : s.record.status = .running ∨ s.record.status = .paused)
      (h : s.record.currentStep = some id) (hid : (t.step? id).isSome) :
      Enters e t s .resume ⟨e.config.maxVisits, false, some id, resumedAt s⟩

/-- The run that a command leads to passes the point. -/
def RunsThrough (e : Engine σ) (t : Template) (s : Session σ) (launch : Launch) (p : Point σ) :
    Prop :=
  ∃ entry, e.Enters t s launch entry ∧ e.Passes (.ofTemplate t) entry p

/-- The run from a point on. -/
def runOn (e : Engine σ) (g : StepGraph) (p : Point σ) : Except EngineError Unit × Session σ :=
  match p.next with
  | none => complete p.session
  | some id => e.runFrom g p.left p.viaFailure id p.session

/-! ### From point to point -/

theorem Passes.underway (he : e.registry.Calm) (h : e.Passes g p q) (hp : p.session.Underway) :
    q.session.Underway := by
  induction h with
  | here => exact hp
  | visit _ hvisit _ ih => exact ih (visit_underway he hp hvisit)

theorem Passes.current (he : e.registry.Calm) (h : e.Passes g p q) (hp : p.session.Underway)
    (hcurrent : p.session.record.currentStep = p.next) :
    q.session.record.currentStep = q.next := by
  induction h with
  | here => exact hcurrent
  | visit _ hvisit _ ih => exact ih (visit_underway he hp hvisit) (goOn_cases he hp hvisit).1

/-- Each step that has been visited has come to its end. -/
theorem Passes.settled (he : e.registry.Calm) (h : e.Passes g p q) (hp : p.session.Underway)
    (hsettled : ∀ x ∈ p.session.record.executions, x.status ≠ .running) :
    ∀ x ∈ q.session.record.executions, x.status ≠ .running := by
  induction h with
  | here => exact hsettled
  | visit _ hvisit _ ih =>
    obtain ⟨-, x, hexecutions, -, hfinished⟩ := goOn_cases he hp hvisit
    refine ih (visit_underway he hp hvisit) ?_
    rw [hexecutions]
    exact List.forall_mem_append.2 ⟨hsettled, List.forall_mem_singleton.2 hfinished.2⟩

theorem Passes.origin (he : e.registry.Calm) (h : e.Passes g p q) (hp : p.session.Underway) :
    q.session.record.origin = p.session.record.origin := by
  induction h with
  | here => rfl
  | visit _ hvisit _ ih => exact (ih (visit_underway he hp hvisit)).trans (goOn_origin he hp hvisit)

/-- From each of its points on it is the same run. -/
theorem Passes.runOn_eq (he : e.registry.Calm) (h : e.Passes g p q) (hp : p.session.Underway) :
    e.runOn g p = e.runOn g q := by
  induction h with
  | here => rfl
  | @visit left viaFailure via id step next s s' q hid hvisit _ ih =>
    rw [← ih (visit_underway he hp hvisit)]
    simp only [runOn]
    rw [runFrom_succ hp hid, hvisit]
    cases next <;> rfl

theorem Enters.runOn_eq (h : e.Enters t s launch p) (hcalm : s.world.outage = none)
    (ht : s.Bound t) : launch.act e s = e.runOn (.ofTemplate t) p := by
  cases h with
  | start hnew hordered =>
    rw [Launch.act, start_apply hcalm hnew ht, hordered]
    rfl
  | @resume id hstatus hcurrent hid =>
    have hthere : ¬ (t.step? id).isNone := by simp [Option.ne_none_iff_isSome.2 hid]
    rw [Launch.act, resume_apply hcalm hstatus ht, hcurrent]
    simp only [if_neg hthere]
    rfl

theorem Enters.left_eq (h : e.Enters t s launch p) : p.left = e.config.maxVisits := by
  cases h <;> rfl

theorem Enters.underway (h : e.Enters t s launch p) (hcalm : s.world.outage = none) :
    p.session.Underway := by
  cases h with
  | start => exact Session.launched_underway hcalm
  | resume hstatus => exact resumedAt_underway hcalm hstatus

theorem Enters.origin (h : e.Enters t s launch p) :
    p.session.record.origin = s.record.origin := by
  cases h with
  | start => rfl
  | resume => exact resumedAt_origin s

theorem Enters.surroundings (h : e.Enters t s launch p) :
    p.session.world.surroundings = s.world.surroundings := by
  cases h with
  | start => rfl
  | resume => exact resumedAt_surroundings s

theorem Enters.bound (h : e.Enters t s launch p) (ht : s.Bound t) : p.session.Bound t :=
  ht.of_origin h.origin (congrArg Surroundings.templates h.surroundings)

theorem Enters.current (h : e.Enters t s launch p) :
    p.session.record.currentStep = p.next := by
  cases h with
  | start => rfl
  | resume _ hcurrent => exact (resumedAt_currentStep s).trans hcurrent

theorem Enters.settled (h : e.Enters t s launch p)
    (hnew : s.record.status = .notStarted → s.record.executions = []) :
    ∀ x ∈ p.session.record.executions, x.status ≠ .running := by
  cases h with
  | @start first _ hstatus =>
    intro x hx
    rw [show (startedAt s first).record.executions = [] from hnew hstatus] at hx
    cases hx
  | resume => exact resumedAt_settled s

theorem RunsThrough.steady (hp : e.RunsThrough t s launch p) (he : e.registry.Calm)
    (hcalm : s.world.outage = none)
    (hnew : s.record.status = .notStarted → s.record.executions = []) : p.Steady := by
  obtain ⟨entry, henters, hpasses⟩ := hp
  have hunderway := henters.underway hcalm
  exact ⟨hpasses.underway he hunderway, hpasses.current he hunderway henters.current,
    hpasses.settled he hunderway (henters.settled hnew)⟩

/-- What comes of a command is what comes of the run from any of its points on. -/
theorem RunsThrough.act_eq (hp : e.RunsThrough t s launch p) (he : e.registry.Calm)
    (hcalm : s.world.outage = none) (ht : s.Bound t) :
    launch.act e s = e.runOn (.ofTemplate t) p := by
  obtain ⟨entry, henters, hpasses⟩ := hp
  rw [henters.runOn_eq hcalm ht, hpasses.runOn_eq he (henters.underway hcalm)]

/-! ### The last point -/

/-- What the run comes to at a point from which it does not go on to another. -/
inductive Halts (e : Engine σ) (g : StepGraph) :
    Point σ → Except EngineError Unit × Session σ → Prop
  | completes {left : Nat} {viaFailure : Bool} {s : Session σ} :
      Halts e g ⟨left, viaFailure, none, s⟩ (.ok (), s.completed)
  | dangles {left : Nat} {viaFailure : Bool} {id : String} {s : Session σ}
      (hid : g.step? id = none) : Halts e g ⟨left, viaFailure, some id, s⟩
        (.error (.danglingStep id), s.failed (EngineError.danglingStep id).message)
  | exceeds {viaFailure : Bool} {id : String} {step : Step} {s : Session σ}
      (hid : g.step? id = some step) : Halts e g ⟨0, viaFailure, some id, s⟩
        (.error (.tooManyVisits e.config.maxVisits),
          s.failed (EngineError.tooManyVisits e.config.maxVisits).message)
  | stops {left : Nat} {viaFailure : Bool} {id : String} {step : Step} {s s' : Session σ}
      (hid : g.step? id = some step) (hvisit : e.visit g step viaFailure s = (.ok .stop, s')) :
      Halts e g ⟨left + 1, viaFailure, some id, s⟩ (.ok (), s')
  | breaks {left : Nat} {viaFailure : Bool} {id : String} {step : Step} {s s' : Session σ}
      {err : EngineError} (hid : g.step? id = some step)
      (hvisit : e.visit g step viaFailure s = (.error err, s')) :
      Halts e g ⟨left + 1, viaFailure, some id, s⟩ (.error err, s')

theorem Halts.runOn_eq {final : Except EngineError Unit × Session σ} (h : e.Halts g p final)
    (hp : p.session.Underway) : e.runOn g p = final := by
  cases h with
  | completes => exact complete_apply hp.calm hp.live
  | dangles hid => exact runFrom_of_dangling hp hid _ _
  | exceeds hid => exact runFrom_zero hp hid _
  | stops hid hvisit => exact (runFrom_succ hp hid _ _).trans (congrArg _ hvisit)
  | breaks hid hvisit => exact (runFrom_succ hp hid _ _).trans (congrArg _ hvisit)

theorem Halts.exists_halts {final : Except EngineError Unit × Session σ} (h : e.Halts g p final)
    (hp : p.session.Underway) : ∃ q, e.Passes g p q ∧ e.Halts g q (e.runOn g p) :=
  ⟨p, .here p, (h.runOn_eq hp).symm ▸ h⟩

/-- Every run comes to a last point. -/
theorem exists_halts (he : e.registry.Calm) (g : StepGraph) (p : Point σ)
    (hp : p.session.Underway) : ∃ q, e.Passes g p q ∧ e.Halts g q (e.runOn g p) := by
  obtain ⟨left, viaFailure, next, s⟩ := p
  -- Each visit takes one from those that are left, so that there is a last point.
  induction left generalizing viaFailure next s with
  | zero =>
    cases next with
    | none => exact Halts.completes.exists_halts hp
    | some id =>
      cases hid : g.step? id with
      | none => exact (Halts.dangles hid).exists_halts hp
      | some step => exact (Halts.exceeds hid).exists_halts hp
  | succ left ih =>
    cases next with
    | none => exact Halts.completes.exists_halts hp
    | some id =>
      cases hid : g.step? id with
      | none => exact (Halts.dangles hid).exists_halts hp
      | some step =>
        match hvisit : e.visit g step viaFailure s with
        | (.error err, s') => exact (Halts.breaks hid hvisit).exists_halts hp
        | (.ok .stop, s') => exact (Halts.stops hid hvisit).exists_halts hp
        | (.ok (.goOn next via), s') =>
          have hunderway := visit_underway he hp hvisit
          obtain ⟨q, hpasses, hhalts⟩ := ih via next s' hunderway
          have hpasses' := Passes.visit hid hvisit hpasses
          refine ⟨q, hpasses', ?_⟩
          rw [hpasses'.runOn_eq he hp, ← hpasses.runOn_eq he hunderway]
          exact hhalts

/-! ### From a command to its run -/

/-- A command comes to an end before a step is visited, whatever the engine, or it leads to a run,
whose first point depends on the engine only in the number of visits. -/
theorem Launch.act_cases (launch : Launch) (h : s.world.outage = none) :
    (∃ final : Except EngineError Unit × Session σ, (∀ e : Engine σ, launch.act e s = final) ∧
        ((∃ err, err.isRefusal ∧ final = (.error err, s)) ∨
          (∃ err, err.blamesTemplate ∧ final = (.error err, s.failed err.message)) ∨
          final = (.ok (), s.completed))) ∨
      ∃ t id s', s.Bound t ∧
        ∀ e : Engine σ, e.Enters t s launch ⟨e.config.maxVisits, false, some id, s'⟩ := by
  cases haccepts : launch.accepts s.record.status with
  | false =>
    obtain ⟨err, hrefusal, hact⟩ := launch.act_of_refused haccepts
    exact .inl ⟨_, hact, .inl ⟨err, hrefusal, rfl⟩⟩
  | true =>
    rcases bound_or_fails h (launch.live_of_accepts haccepts) with ⟨t, ht⟩ | ⟨err, herr, hfails⟩
    · cases launch with
      | start =>
        have hnew : s.record.status = .notStarted := by simpa [accepts] using haccepts
        cases hordered : t.ordered with
        | nil =>
          refine .inl ⟨_, fun e => ?_, .inr (.inr rfl)⟩
          rw [act, start_apply h hnew ht, hordered]
        | cons first others => exact .inr ⟨t, _, _, ht, fun e => .start hnew hordered⟩
      | resume =>
        have hstatus : s.record.status = .running ∨ s.record.status = .paused := by
          simpa [accepts] using haccepts
        cases hcurrent : s.record.currentStep with
        | none =>
          refine .inl ⟨_, fun e => ?_, .inr (.inr rfl)⟩
          rw [act, resume_apply h hstatus ht, hcurrent]
        | some id =>
          by_cases hid : (t.step? id).isNone
          · refine .inl ⟨_, fun e => ?_, .inr (.inl ⟨.danglingStep id, rfl, rfl⟩)⟩
            rw [act, resume_apply h hstatus ht, hcurrent]
            simp only [if_pos hid]
          · have hthere : (t.step? id).isSome := by
              rw [← Option.not_isNone, eq_false_of_ne_true hid]
              rfl
            exact .inr ⟨t, _, _, ht, fun e => .resume hstatus hcurrent hthere⟩
    · exact .inl ⟨_, fun e => launch.act_of_template_error haccepts hfails,
        .inr (.inl ⟨err, herr, rfl⟩)⟩

/-- A command comes to an end before a step is visited, or its run comes to a last point. -/
theorem Launch.act_halts (he : e.registry.Calm) (launch : Launch) (h : s.world.outage = none) :
    (∃ final : Except EngineError Unit × Session σ, launch.act e s = final ∧
        ((∃ err, err.isRefusal ∧ final = (.error err, s)) ∨
          (∃ err, err.blamesTemplate ∧ final = (.error err, s.failed err.message)) ∨
          final = (.ok (), s.completed))) ∨
      ∃ t p q, s.Bound t ∧ e.Enters t s launch p ∧ e.Passes (.ofTemplate t) p q ∧
        e.Halts (.ofTemplate t) q (launch.act e s) := by
  rcases launch.act_cases h with ⟨final, hact, hfinal⟩ | ⟨t, id, s', ht, henters⟩
  · exact .inl ⟨final, hact e, hfinal⟩
  · have henters := henters e
    obtain ⟨q, hpasses, hhalts⟩ := exists_halts he (.ofTemplate t) _ (henters.underway h)
    rw [← henters.runOn_eq h ht] at hhalts
    exact .inr ⟨t, _, q, ht, henters, hpasses, hhalts⟩

end Engine

end Casework
