import Casework.Proofs.Engine.Coupling
import Casework.Proofs.Engine.Passage

/-!
# The calls to executors

An engine can be made to keep a log of its calls to executors, in what the executors remember. It
comes to the same with every command as the engine without a log, through the same points, so that
the log tells which executors that one has called.
-/

namespace Casework

variable {σ : Type}

/-- What an executor is given. -/
structure ExecutorCall where
  step : Step
  execution : Execution
  record : CaseRecord
deriving DecidableEq, Repr

/-- What executors remember, and a log of the calls to them. -/
abbrev Logged (σ : Type) := σ × List ExecutorCall

def World.logging (w : World σ) (log : List ExecutorCall) : World (Logged σ) :=
  { w with memory := (w.memory, log) }

def World.unlogged (w : World (Logged σ)) : World σ := { w with memory := w.memory.1 }

def Session.logging (s : Session σ) (log : List ExecutorCall) : Session (Logged σ) :=
  ⟨s.record, s.world.logging log⟩

def Session.unlogged (s : Session (Logged σ)) : Session σ := ⟨s.record, s.world.unlogged⟩

theorem Session.unlogged_logging (s : Session σ) (log : List ExecutorCall) :
    (s.logging log).unlogged = s :=
  rfl

def Session.log (s : Session (Logged σ)) : List ExecutorCall := s.world.memory.2

def Point.unlogged (p : Point (Logged σ)) : Point σ := { p with session := p.session.unlogged }

/-- The executor enters each call in the log. -/
def Executor.logged (x : Executor σ) : Executor (Logged σ) := fun step execution record w =>
  let answer := x step execution record w.unlogged
  (answer.1, answer.2.logging (w.memory.2 ++ [⟨step, execution, record⟩]))

namespace Engine

open Work Casework.Action

def logged (e : Engine σ) : Engine (Logged σ) :=
  ⟨⟨fun type => (e.registry.executor? type).map Executor.logged⟩, e.config⟩

/-- The calls to executors that a command makes. -/
def calls (e : Engine σ) (launch : Launch) (s : Session σ) : List ExecutorCall :=
  (launch.act e.logged (s.logging [])).2.log

variable {e : Engine σ} {t : Template} {g : StepGraph} {step : Step} {launch : Launch}

theorem logged_calm (he : e.registry.Calm) : e.logged.registry.Calm := by
  intro type y hy step execution record w hcalm
  obtain ⟨x, hx, rfl⟩ := Option.map_eq_some_iff.1 hy
  exact he hx step execution record w.unlogged hcalm

/-- The log makes no difference to anything but itself. -/
theorem coupling_logged (e : Engine σ) (id : Id) :
    Coupling e.logged e id fun s s' => s.unlogged = s' ∧ s.record.id = id where
  config := rfl
  recordId hs := hs.2
  record hs := hs.1 ▸ rfl
  now hs := hs.1 ▸ rfl
  newId hs := hs.1 ▸ rfl
  outage hs := hs.1 ▸ rfl
  stored hs := hs.1 ▸ rfl
  templates hs _ _ := hs.1 ▸ rfl
  ticked hs := ⟨hs.1 ▸ rfl, hs.2⟩
  drawn hs := ⟨hs.1 ▸ rfl, hs.2⟩
  asked hs _ := ⟨hs.1 ▸ rfl, hs.2⟩
  turned hs hid := ⟨hs.1 ▸ rfl, hid⟩
  saved hs := ⟨hs.1 ▸ rfl, hs.2⟩
  executors type := by
    show Option.Rel _ ((e.registry.executor? type).map Executor.logged) _
    cases e.registry.executor? type with
    | none => exact .none
    | some x =>
      refine .some ?_
      rintro s s' ⟨rfl, hid⟩ step execution
      exact ⟨rfl, rfl, hid⟩

theorem act_logged (e : Engine σ) (launch : Launch) (s : Session σ) (log : List ExecutorCall) :
    (launch.act e.logged (s.logging log)).1 = (launch.act e s).1 ∧
      (launch.act e.logged (s.logging log)).2.unlogged = (launch.act e s).2 := by
  obtain ⟨hresult, hsession, -⟩ :=
    (coupling_logged e s.record.id).couples_command (.launch launch) ⟨s.unlogged_logging log, rfl⟩
  exact ⟨hresult, hsession⟩

/-! ### The points of a run with a log -/

theorem exists_visit_logged {s : Session (Logged σ)} {viaFailure : Bool}
    {result : Except EngineError Next} {s' : Session σ}
    (hvisit : e.visit g step viaFailure s.unlogged = (result, s')) :
    ∃ s₁, e.logged.visit g step viaFailure s = (result, s₁) ∧ s₁.unlogged = s' := by
  obtain ⟨hresult, hsession, -⟩ :=
    (coupling_logged e s.record.id).couples_visit g step viaFailure (s := s) ⟨rfl, rfl⟩
  rw [hvisit] at hresult hsession
  exact ⟨_, Prod.ext hresult rfl, hsession⟩

theorem Passes.exists_logged {p q : Point σ} (h : e.Passes g p q) {p₁ : Point (Logged σ)}
    (hp : p₁.unlogged = p) : ∃ q₁, e.logged.Passes g p₁ q₁ ∧ q₁.unlogged = q := by
  induction h generalizing p₁ with
  | here p => exact ⟨p₁, .here p₁, hp⟩
  | visit hid hvisit _ ih =>
    obtain ⟨left, viaFailure, next, s⟩ := p₁
    obtain ⟨rfl, rfl, rfl, rfl⟩ := Point.mk.inj hp
    obtain ⟨s₁, hvisit₁, rfl⟩ := exists_visit_logged hvisit
    obtain ⟨q₁, hpasses, hq⟩ := @ih ⟨_, _, _, s₁⟩ rfl
    exact ⟨q₁, .visit hid hvisit₁ hpasses, hq⟩

/-- Whatever is mended, the clock is read as often. -/
theorem mended_unlogged (s : Session σ) (log : List ExecutorCall) :
    (mended (s.logging log)).unlogged = mended s := by
  obtain ⟨executions, readings, hsettle, hmended, -⟩ := mended_eq s
  obtain ⟨_, readings₁, hsettle₁, hmended₁, -⟩ := mended_eq (s.logging log)
  obtain ⟨hresult, hsession, -⟩ :=
    (coupling_logged ⟨.empty, .default⟩ s.record.id).couples_settleInterrupted s.record.executions
      ⟨s.unlogged_logging log, rfl⟩
  have hrecord : (s.logging log).record = s.record := rfl
  rw [hrecord] at hsettle₁ hmended₁
  rw [hsettle₁, hsettle] at hresult hsession
  obtain rfl := Except.ok.inj hresult
  obtain rfl : readings₁ = readings := congrArg (fun s : Session σ => s.world.readings) hsession
  rw [hmended, hmended₁]
  rfl

theorem resumedAt_unlogged (s : Session σ) (log : List ExecutorCall) :
    (resumedAt (s.logging log)).unlogged = resumedAt s := by
  have hrecord : (s.logging log).record = s.record := rfl
  rw [resumedAt, resumedAt, hrecord, ← mended_unlogged s log]
  split <;> rfl

theorem Enters.exists_logged {s : Session σ} {p : Point σ} (h : e.Enters t s launch p)
    (log : List ExecutorCall) :
    ∃ p₁, e.logged.Enters t (s.logging log) launch p₁ ∧ p₁.unlogged = p := by
  cases h with
  | start hnew hordered => exact ⟨_, .start hnew hordered, rfl⟩
  | resume hstatus hcurrent hid =>
    refine ⟨_, .resume hstatus hcurrent hid, ?_⟩
    rw [← resumedAt_unlogged s log]
    rfl

theorem Enters.log_eq {s : Session (Logged σ)} {p : Point (Logged σ)}
    (h : e.logged.Enters t s launch p) : p.session.log = s.log :=
  congrArg (Prod.snd ∘ Surroundings.memory) h.surroundings

/-- The engine with a log comes through the same points. -/
theorem RunsThrough.exists_logged {s : Session σ} {p : Point σ}
    (h : e.RunsThrough t s launch p) : ∃ p₁,
      e.logged.RunsThrough t (s.logging []) launch p₁ ∧ p₁.unlogged = p := by
  obtain ⟨entry, henters, hpasses⟩ := h
  obtain ⟨entry₁, henters₁, hentry⟩ := henters.exists_logged []
  obtain ⟨p₁, hpasses₁, hp⟩ := hpasses.exists_logged hentry
  exact ⟨p₁, ⟨entry₁, henters₁, hpasses₁⟩, hp⟩

/-! ### One call for a visit -/

theorem worldBehind_logged_of_some {x : Executor σ}
    (hx : e.registry.executor? step.type = some x) (s : Session (Logged σ)) :
    let begun := (s.directed (some step.id)).begun step
    (e.logged.worldBehind step s).unlogged = e.worldBehind step s.unlogged ∧
      (e.logged.worldBehind step s).memory.2 =
        s.log ++ [⟨step, (s.directed (some step.id)).execution step, begun.record⟩] := by
  have hlogged : e.logged.registry.executor? step.type = some x.logged := by
    rw [logged, Registry.executor?]
    simp [hx]
  rw [worldBehind_of_some hlogged, worldBehind_of_some hx]
  exact ⟨rfl, rfl⟩

theorem worldBehind_logged_length (e : Engine σ) (step : Step) (s : Session (Logged σ)) :
    (e.logged.worldBehind step s).memory.2.length ≤ s.log.length + 1 := by
  cases hx : e.registry.executor? step.type with
  | none =>
    have hnone : e.logged.registry.executor? step.type = none := by
      rw [logged, Registry.executor?]
      simp [hx]
    rw [worldBehind_of_none hnone]
    exact Nat.le_succ _
  | some x =>
    rw [(worldBehind_logged_of_some hx s).2, List.length_append]
    exact Nat.le_refl _

end Engine

end Casework
