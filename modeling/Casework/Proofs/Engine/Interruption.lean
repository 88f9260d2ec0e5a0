import Casework.Proofs.Engine.Alike
import Casework.Proofs.Engine.Passage
import Casework.Proofs.Template.Order

/-!
# Taking up a case that was interrupted

Between two visits of a run the case is in the store with what has come of its steps and with the
step to go on with, and it is still running. Whoever resumes it from there comes to the same end as
the run would have, but for one thing that the record does not tell: whether a failure has led to
the step. If it has, and there is no executor for the step, the run fails, but the case that is
taken up does what is done with any step that has no executor.
-/

namespace Casework

variable {σ μ : Type}

namespace Point

variable {p : Point σ} {t : Template}

/-- What holds at each point: the case is on its way, and its record says with which step. -/
structure Sound (t : Template) (p : Point σ) : Prop where
  underway : p.session.Underway
  bound : p.session.Bound t
  current : p.session.record.currentStep = p.next
  settled : ∀ m ∈ p.session.record.gist.marks, m.status ≠ .running

/-- Somebody has the record that is in the store at the point, and the executors remember what they
remembered there. -/
structure TakenUp (remember : σ → μ) (t : Template) (p : Point σ) (s : Session σ) : Prop where
  record : s.record = p.session.record
  calm : s.world.outage = none
  bound : s.Bound t
  memory : remember s.world.memory = remember p.session.world.memory

/-- There is an executor for the step, if a failure has led to it. -/
def Recoverable (reg : Registry σ) (t : Template) (p : Point σ) : Prop :=
  p.viaFailure → ∀ step ∈ t.steps, p.next = some step.id → reg.contains step.type

end Point

namespace CaseRecord.Gist

/-- The same status, error and executions. -/
structure EndsLike (a b : Gist) : Prop where
  status : a.status = b.status
  error : a.error = b.error
  executions : a.executions = b.executions

theorem endsLike_of_eq {a b : Gist} (h : a = b) : a.EndsLike b := by
  rw [h]
  exact ⟨rfl, rfl, rfl⟩

end CaseRecord.Gist

/-! ### The points of a run -/

namespace Engine

variable {remember : σ → μ} {e : Engine σ} {t : Template} {g : StepGraph} {s s' : Session σ}
  {p q : Point σ} {launch : Launch}

theorem Passes.bound (he : e.registry.Discreet) (h : e.Passes g p q) (hp : p.session.Underway)
    (ht : p.session.Bound t) : q.session.Bound t := by
  induction h with
  | here => exact ht
  | @visit left viaFailure via id step next s s' q hid hvisit _ ih =>
    have hsurroundings := visit_surroundings he.calm g step hp viaFailure
    rw [hvisit] at hsurroundings
    have htemplates := congrArg Surroundings.templates hsurroundings
    exact ih (visit_underway he.calm hp hvisit) (ht.of_origin (goOn_origin he.calm hp hvisit)
      (htemplates.trans (worldBehind_templates he step s)))

theorem RunsThrough.sound (hp : e.RunsThrough t s launch p) (he : e.registry.Discreet)
    (hcalm : s.world.outage = none) (ht : s.Bound t)
    (hnew : s.record.status = .notStarted → s.record.executions = []) : p.Sound t := by
  have hsteady := hp.steady he.calm hcalm hnew
  obtain ⟨entry, henters, hpasses⟩ := hp
  refine ⟨hsteady.underway, ?_, hsteady.current, ?_⟩
  · exact hpasses.bound he (henters.underway hcalm) (henters.bound ht)
  · intro m hm
    obtain ⟨y, hy, rfl⟩ := List.mem_map.1 hm
    obtain ⟨x, hx, rfl⟩ := List.mem_map.1 hy
    exact hsteady.settled x hx

/-! ### The case that is taken up -/

theorem running_of_takenUp (hup : p.TakenUp remember t s') (hsound : p.Sound t) :
    s'.record.status = .running := by
  rw [hup.record]
  exact hsound.underway.running

theorem currentStep_of_takenUp (hup : p.TakenUp remember t s') (hsound : p.Sound t) :
    s'.record.currentStep = p.next := by
  rw [hup.record]
  exact hsound.current

theorem underway_of_takenUp (hup : p.TakenUp remember t s') (hsound : p.Sound t) :
    s'.saved.Underway := by
  have hrunning : s'.record.status = .running := running_of_takenUp hup hsound
  exact ⟨hup.calm, hrunning, Session.saved_stored _⟩

/-- There is nothing to mend, and the case is running already. -/
theorem resumedAt_of_takenUp (hup : p.TakenUp remember t s') (hsound : p.Sound t) :
    resumedAt s' = s'.saved := by
  have hmended : mended s' = s' := by
    refine mended_of_none_running fun x hx => ?_
    rw [hup.record] at hx
    exact hsound.settled x.gist.mark (List.mem_map_of_mem (List.mem_map_of_mem hx))
  rw [resumedAt, hmended, if_neg]
  rw [running_of_takenUp hup hsound]
  decide

theorem alike_of_takenUp (hup : p.TakenUp remember t s') (hsound : p.Sound t) :
    Alike remember p.session s'.saved where
  underway := hsound.underway
  underway' := underway_of_takenUp hup hsound
  gist := by rw [Session.saved_gist, hup.record]
  data := (congrArg CaseRecord.data hup.record).symm
  memory := hup.memory.symm

/-- The case that is taken up comes to the same end, if it does not matter that a failure has led to
the step. -/
theorem resume_gist_eq (he : e.registry.Repeatable remember) (hup : p.TakenUp remember t s')
    (hsound : p.Sound t) (hrecoverable : p.Recoverable e.registry t)
    (hends : ∀ limit, (e.runOn (.ofTemplate t) p).1 ≠ .error (.tooManyVisits limit))
    (hends' : ∀ limit, (e.resume s').1 ≠ .error (.tooManyVisits limit))
    (hinorder : Chronological (e.runOn (.ofTemplate t) p).2.record.executions)
    (hinorder' : Chronological (e.resume s').2.record.executions) :
    (e.resume s').2.record.gist = (e.runOn (.ofTemplate t) p).2.record.gist := by
  have halike := alike_of_takenUp hup hsound
  have hrunning := running_of_takenUp hup hsound
  rw [resume_apply hup.calm (.inl hrunning) hup.bound, currentStep_of_takenUp hup hsound,
    resumedAt_of_takenUp hup hsound] at hends' hinorder' ⊢
  obtain ⟨left, viaFailure, next, s⟩ := p
  have hgist : s'.record.gist = s.record.gist := congrArg CaseRecord.gist hup.record
  cases next with
  | none =>
    rw [runOn, complete_apply hsound.underway.calm hsound.underway.live]
    simp only [Session.completed_gist, hgist]
  | some id =>
    by_cases hdangling : (t.step? id).isNone
    · have hid : (StepGraph.ofTemplate t).step? id = none := by
        rw [← Option.isNone_iff_eq_none, StepGraph.step?_isNone]
        exact hdangling
      simp only [if_pos hdangling, runOn, runFrom_of_dangling hsound.underway hid,
        Session.failed_gist, hgist]
    · simp only [if_neg hdangling] at hends' hinorder' ⊢
      refine (runFrom_gist_eq he halike ?_ hends hends' hinorder hinorder').symm
      cases viaFailure with
      | false => exact .inl rfl
      | true =>
        refine .inr fun step hid => ?_
        obtain ⟨hstep, rfl⟩ := StepGraph.mem_of_step? hid
        exact hrecoverable rfl step hstep rfl

/-! ### A step without an executor to which a failure has led -/

theorem noExecutor_message_ne (step : Step) :
    (EngineError.noExecutor step.id step.type).message ≠
      "No executor registered for step type " ++ step.type.name ++ " (step " ++ step.id ++ ")" := by
  intro h
  change "failure successor " ++ step.id ++ " has no executor registered for step type " ++
    step.type.name = _ at h
  simp only [String.append_assoc] at h
  have hchars := congrArg String.toList h
  simp at hchars

theorem encounter_of_not_contains {step : Step} (h : ¬ e.registry.contains step.type) :
    e.encounter step s = .noExecutor := by
  rw [encounter, called, Registry.executor?_of_not_contains h]
  rfl

/-- What is executed before a visit is there at the end of the run behind it. -/
theorem runBehind_continues (he : e.registry.Discreet) (left : Nat) {next : Option String}
    {via : Bool} (h : s.Underway) :
    s.Continues (e.runBehind g left (.ok (.goOn next via), s)).2 := by
  cases next with
  | none =>
    rw [runBehind, complete_apply h.calm h.live]
    exact s.completed_continues
  | some next => exact runFrom_continues he left via next h

/-- The run fails with the executions as they are. -/
theorem runFrom_of_not_contains (he : e.registry.Discreet) {step : Step} (h : s.Underway)
    (hid : g.step? step.id = some step) (hexecutor : ¬ e.registry.contains step.type) (left : Nat) :
    (e.runFrom g (left + 1) true step.id s).2.record.gist =
      { s.record.gist with
        status := .failed
        currentStep := some step.id
        error := some (EngineError.noExecutor step.id step.type).message } := by
  have hleads := @visit_leads σ e he g step s h.calm h.running true
  rw [encounter_of_not_contains hexecutor] at hleads
  rw [runFrom_succ h hid]
  generalize e.visit g step true s = final at hleads
  obtain ⟨result, f⟩ := final
  obtain rfl : result = _ := hleads.result
  have hgist : f.record.gist = _ := hleads.gist
  simp only [CaseRecord.Gist.visit, if_true, runBehind, hgist]
  rfl

/-- The case that is taken up fails in other words, or skips the step. -/
theorem runFrom_of_not_contains_taken_up (he : e.registry.Discreet) {step : Step} (h : s.Underway)
    (hid : g.step? step.id = some step) (hexecutor : ¬ e.registry.contains step.type) (left : Nat) :
    (e.runFrom g (left + 1) false step.id s).2.record.gist.error =
        some ("No executor registered for step type " ++ step.type.name ++ " (step " ++ step.id ++
          ")") ∨
      s.record.executions.length <
        (e.runFrom g (left + 1) false step.id s).2.record.executions.length := by
  have hleads := @visit_leads σ e he g step s h.calm h.running false
  rw [encounter_of_not_contains hexecutor] at hleads
  rw [runFrom_succ h hid]
  by_cases hrequired : step.required
  · simp only [CaseRecord.Gist.visit, if_pos hrequired, Bool.false_eq_true, if_false] at hleads
    generalize e.visit g step false s = final at hleads
    obtain ⟨result, f⟩ := final
    obtain rfl : result = _ := hleads.result
    have hgist : f.record.gist = _ := hleads.gist
    refine .inl ?_
    simp only [runBehind, hgist]
    rfl
  · simp only [CaseRecord.Gist.visit, if_neg hrequired, Bool.false_eq_true, if_false] at hleads
    have hunderway := visit_underway he.calm h (Prod.ext hleads.result rfl)
    generalize e.visit g step false s = final at hleads hunderway
    obtain ⟨result, f⟩ := final
    obtain rfl : result = _ := hleads.result
    have hgist : f.record.gist = _ := hleads.gist
    have hlength : f.record.executions.length = s.record.executions.length + 1 := by
      have hgists := congrArg (fun a => a.executions.length) hgist
      simpa [CaseRecord.Gist.extended, CaseRecord.gist] using hgists
    have hcontinues : f.Continues (e.runBehind g left (.ok (.goOn (g.nextInOrder step) false), f)).2 :=
      runBehind_continues he left hunderway
    refine .inr (Nat.lt_of_lt_of_le ?_ hcontinues.executions.length_le)
    rw [hlength]
    exact Nat.lt_succ_self _

theorem not_endsLike (he : e.registry.Discreet) (hup : p.TakenUp remember t s')
    (hsound : p.Sound t) (hlost : ¬ p.Recoverable e.registry t)
    (hends : ∀ limit, (e.runOn (.ofTemplate t) p).1 ≠ .error (.tooManyVisits limit))
    (hends' : ∀ limit, (e.resume s').1 ≠ .error (.tooManyVisits limit)) :
    ¬ (e.resume s').2.record.gist.EndsLike (e.runOn (.ofTemplate t) p).2.record.gist := by
  obtain ⟨left, viaFailure, next, s⟩ := p
  simp only [Point.Recoverable, Classical.not_imp, not_forall] at hlost
  obtain ⟨rfl, step, hstep, rfl, hexecutor⟩ := hlost
  have ht := hsound.bound.2
  have hid := StepGraph.step?_of_mem ht hstep
  have hthere : ¬ (t.step? step.id).isNone := by simp [Template.step?_of_mem ht hstep]
  have hunderway' := underway_of_takenUp hup hsound
  have hrecord : s'.record = s.record := hup.record
  rw [resume_apply hup.calm (.inl hunderway'.running) hup.bound,
    currentStep_of_takenUp hup hsound, resumedAt_of_takenUp hup hsound] at hends' ⊢
  simp only [if_neg hthere, runOn, run] at hends hends' ⊢
  obtain ⟨left, rfl⟩ := exists_left_of_ends hsound.underway hid hends
  obtain ⟨max, hmax⟩ := exists_left_of_ends hunderway' hid hends'
  rw [hmax]
  have hfailed := runFrom_of_not_contains he hsound.underway hid hexecutor left
  intro hsame
  rcases runFrom_of_not_contains_taken_up he hunderway' hid hexecutor max with herror | hmore
  · have hmessage := herror.symm.trans (hsame.error.trans (congrArg CaseRecord.Gist.error hfailed))
    exact noExecutor_message_ne step (Option.some.inj hmessage).symm
  · have hlength := congrArg List.length
      (hsame.executions.trans (congrArg CaseRecord.Gist.executions hfailed))
    simp only [CaseRecord.gist, List.length_map] at hlength
    rw [hlength, Session.saved_executions, hrecord] at hmore
    exact Nat.lt_irrefl _ hmore

end Engine

/-! ### A delivery that nobody takes in -/

namespace Delivery

/-- Whoever is asked, the answer is the same. -/
def answering (r : StepResult) : Executor Unit := fun _ _ _ w => (.result r, w)

theorem answering_repeatable (r : StepResult) : (answering r).Repeatable id where
  records _ _ _ _ := rfl
  templates _ _ _ _ := rfl
  outage _ _ _ _ := rfl
  reply _ _ _ _ _ _ _ _ _ _ := rfl
  remembers _ _ _ _ _ _ _ _ _ hmemory := hmemory

def deliver : Step := ⟨"deliver", "Delivery", .calculation, 1, none, true, none, some "inform"⟩

def inform : Step := ⟨"inform", "Information", .humanTask, 2, none, false, none, none⟩

def template : Template where
  id := "delivery"
  version := 1
  name := "Delivery"
  description := none
  steps := [deliver, inform]
  publishedAt := some ⟨0⟩

/-- There may be somebody to inform the client, or not. -/
def engine (staffed : Bool) : Engine Unit where
  registry :=
    let delivering := Registry.empty.insert .calculation (answering (.failed "nobody home"))
    if staffed then delivering.insert .humanTask (answering (.succeeded "informed"))
    else delivering
  config := .default

theorem answering_of_executor {staffed : Bool} {type : StepType} {x : Executor Unit}
    (hx : (engine staffed).registry.executor? type = some x) : ∃ r, x = answering r := by
  cases staffed with
  | false =>
    cases type with
    | calculation => exact ⟨_, (Option.some.inj hx).symm⟩
    | decisionTable | humanTask | clientApproval | documentGeneration => exact nomatch hx
  | true =>
    cases type with
    | calculation | humanTask => exact ⟨_, (Option.some.inj hx).symm⟩
    | decisionTable | clientApproval | documentGeneration => exact nomatch hx

theorem repeatable (staffed : Bool) : (engine staffed).registry.Repeatable id := by
  intro type x hx
  obtain ⟨r, rfl⟩ := answering_of_executor hx
  exact answering_repeatable r

theorem discreet (staffed : Bool) : (engine staffed).registry.Discreet :=
  Registry.Repeatable.discreet (repeatable staffed)

def opened : Session Unit := .opened template ()

/-- The delivery has failed, and the client is to be informed. -/
def informing (staffed : Bool) : Point Unit where
  left := 999
  viaFailure := true
  next := some "inform"
  session := ((engine staffed).visit (.ofTemplate template) deliver false
    (Engine.startedAt opened deliver)).2

/-- The case is taken up later. -/
def later (staffed : Bool) : Session Unit :=
  let s := (informing staffed).session
  { s with world := { s.world with readings := s.world.readings + 60 } }

theorem bound : opened.Bound template := ⟨(Session.opened_fresh template ()).template, by rfl⟩

theorem ordered_eq : template.ordered = [deliver, inform] :=
  Template.ordered_eq_of_pairwise rfl (.refl _) (by decide)

theorem graph_eq : StepGraph.ofTemplate template = ⟨[deliver, inform]⟩ :=
  congrArg StepGraph.mk ordered_eq

theorem step?_eq {step : Step} (h : step = deliver ∨ step = inform) :
    (StepGraph.ofTemplate template).step? step.id = some step := by
  rw [graph_eq]
  rcases h with rfl | rfl <;> rfl

theorem runsThrough (staffed : Bool) :
    (engine staffed).RunsThrough template opened .start (informing staffed) := by
  refine ⟨_, .start rfl ordered_eq, .visit (step?_eq (.inl rfl)) (Prod.ext ?_ rfl) (.here _)⟩
  rw [graph_eq]
  cases staffed <;> rfl

theorem later_eq (staffed : Bool) : (later staffed).world.outage = none ∧
    (later staffed).record.status = .running ∧
    (later staffed).record.currentStep = some "inform" ∧ (later staffed).Bound template := by
  rw [later, informing, graph_eq]
  cases staffed <;> exact ⟨rfl, rfl, rfl, rfl, rfl⟩

theorem takenUp (staffed : Bool) : (informing staffed).TakenUp id template (later staffed) where
  record := rfl
  calm := (later_eq staffed).1
  bound := (later_eq staffed).2.2.2
  memory := rfl

theorem start_opened : ((engine true).start opened).1 = .ok () ∧
    ((engine true).start opened).2.record.executions.map (·.completedAt) =
      [⟨5⟩, ⟨9⟩].map some := by
  rw [Engine.start_eq_runFrom rfl rfl bound ordered_eq]
  exact ⟨rfl, rfl⟩

theorem resume_later (staffed : Bool) : (engine staffed).resume (later staffed) =
    (engine staffed).runFrom ⟨[deliver, inform]⟩ 1000 false "inform"
      (Engine.resumedAt (later staffed)) := by
  obtain ⟨hcalm, hrunning, hcurrent, hbound⟩ := later_eq staffed
  exact Engine.resume_eq_runFrom hcalm (.inl hrunning) hbound ordered_eq hcurrent rfl

end Delivery

/-! ### The end of a case that is taken up -/

namespace Engine

variable {remember : σ → μ} {e : Engine σ} {t : Template} {s s' : Session σ} {p : Point σ}
  {launch : Launch}

/-- A case that is taken up at a point of a run comes to the same end as the run, exactly if there
is an executor for the step in case that a failure has led to it. -/
theorem resume_endsLike_iff (he : e.registry.Repeatable remember) (hcalm : s.world.outage = none)
    (ht : s.Bound t) (hnew : s.record.status = .notStarted → s.record.executions = [])
    (hp : e.RunsThrough t s launch p) (hup : p.TakenUp remember t s')
    (hends : ∀ limit, (launch.act e s).1 ≠ .error (.tooManyVisits limit))
    (hends' : ∀ limit, (e.resume s').1 ≠ .error (.tooManyVisits limit))
    (hinorder : Chronological (launch.act e s).2.record.executions)
    (hinorder' : Chronological (e.resume s').2.record.executions) :
    (e.resume s').2.record.gist.EndsLike (launch.act e s).2.record.gist ↔
      p.Recoverable e.registry t := by
  have hsound := hp.sound he.discreet hcalm ht hnew
  rw [hp.act_eq (Registry.Discreet.calm he.discreet) hcalm ht] at hends hinorder ⊢
  constructor
  · intro hsame
    by_contra hlost
    exact not_endsLike he.discreet hup hsound hlost hends hends' hsame
  · intro hrecoverable
    exact CaseRecord.Gist.endsLike_of_eq
      (resume_gist_eq he hup hsound hrecoverable hends hends' hinorder hinorder')

open Delivery in
/-- If somebody informs the client, it makes no difference that the case was interrupted. -/
theorem resume_endsLike_iff_delivery :
    ((engine true).resume (later true)).2.record.gist.EndsLike
      ((engine true).start opened).2.record.gist := by
  obtain ⟨hact, htimes⟩ := start_opened
  have hresume : ((engine true).resume (later true)).1 = .ok () ∧
      ((engine true).resume (later true)).2.record.executions.map (·.completedAt) =
        [⟨5⟩, ⟨70⟩].map some := by
    rw [resume_later, later, informing, graph_eq]
    exact ⟨rfl, rfl⟩
  have hcalm : opened.world.outage = none := rfl
  have hiff := resume_endsLike_iff (repeatable true) hcalm bound (fun _ => rfl)
    (runsThrough true) (takenUp true)
  refine (hiff ?_ ?_ ?_ ?_).2 ?_
  · intro limit hlimit
    cases hact.symm.trans hlimit
  · intro limit hlimit
    cases hresume.1.symm.trans hlimit
  · exact chronological_of_times htimes (by decide)
  · exact chronological_of_times hresume.2 (by decide)
  · intro _ step hstep hnext
    obtain rfl | rfl : step = deliver ∨ step = inform := by simpa [Delivery.template] using hstep
    · exact absurd hnext (by decide)
    · rfl

open Delivery in
/-- If nobody does, the case has failed, but is completed when it is taken up. -/
theorem resume_not_endsLike_delivery :
    (engine false).RunsThrough Delivery.template opened .start (informing false) ∧
      (informing false).TakenUp id Delivery.template (later false) ∧
      ((engine false).start opened).2.record.status = .failed ∧
      ((engine false).resume (later false)).2.record.status = .completed ∧
      ¬ ((engine false).resume (later false)).2.record.gist.EndsLike
        ((engine false).start opened).2.record.gist := by
  have hrun := (runsThrough false).act_eq (Registry.Discreet.calm (discreet false)) rfl bound
  have hfailed : ((engine false).start opened).2.record.status = .failed := by
    have hsound := (runsThrough false).sound (discreet false) rfl bound fun _ => rfl
    have hgist := runFrom_of_not_contains (discreet false) hsound.underway
      (step?_eq (.inr rfl)) (by decide) 998
    rw [show (engine false).start opened = _ from hrun]
    exact congrArg CaseRecord.Gist.status hgist
  have hcompleted : ((engine false).resume (later false)).2.record.status = .completed := by
    rw [resume_later, later, informing, graph_eq]
    rfl
  refine ⟨runsThrough false, takenUp false, hfailed, hcompleted, ?_⟩
  intro hsame
  cases (hcompleted.symm.trans hsame.status).trans hfailed

end Engine

end Casework
