import Casework.Proofs.Engine.Cancellation

/-!
# How long a run can be

Whatever cycles a template has, a run visits no more steps than the engine allows for, calls at most
as many executors and adds at most as many executions. It is the limit that ends a run exactly if it
comes to a point at which no visit is left but another step is to be visited. Otherwise the limit
does not matter: the run is the same if more visits are allowed.
-/

namespace Casework

variable {σ : Type}

/-- The same point with more visits left. -/
def Point.plus (p : Point σ) (more : Nat) : Point σ := { p with left := p.left + more }

theorem Session.brokenOff_executions_length (s : Session σ) (id : Id) :
    (s.brokenOff id).record.executions.length = s.record.executions.length := by
  rcases s.brokenOff_cases id with hsame | ⟨place, -, hfailed⟩
  · rw [hsame]
  · rw [hfailed]
    exact List.length_modify ..

namespace Engine

open Work Casework.Action

variable {e : Engine σ} {g : StepGraph} {t : Template} {step : Step} {s s' : Session σ}
  {p q : Point σ} {launch : Launch} {final : Except EngineError Unit × Session σ}

/-! ### Calls -/

theorem visit_log_length (he : e.registry.Calm) (g : StepGraph) (step : Step)
    {s : Session (Logged σ)} (h : s.Underway) (viaFailure : Bool) :
    (e.logged.visit g step viaFailure s).2.log.length ≤ s.log.length + 1 := by
  have hmemory := congrArg Surroundings.memory
    (visit_surroundings (logged_calm he) g step h viaFailure)
  refine Nat.le_trans (Nat.le_of_eq ?_) (e.worldBehind_logged_length step s)
  exact congrArg (fun memory : Logged σ => memory.2.length) hmemory

/-- Each visit makes one call at most. -/
theorem Passes.log_length {p q : Point (Logged σ)} (he : e.registry.Calm)
    (h : e.logged.Passes g p q) (hp : p.session.Underway) :
    q.session.log.length + q.left ≤ p.session.log.length + p.left := by
  -- What is left goes down by one with each visit, and the log grows by one at most.
  induction h with
  | here => exact Nat.le_refl _
  | @visit left viaFailure via id step next s s' q hid hvisit _ ih =>
    have hlength := visit_log_length he g step hp viaFailure
    rw [hvisit] at hlength
    have hrest := ih (visit_underway (logged_calm he) hp hvisit)
    simp only at hlength hrest ⊢
    omega

theorem Halts.log_length {p : Point (Logged σ)}
    {final : Except EngineError Unit × Session (Logged σ)} (he : e.registry.Calm)
    (h : e.logged.Halts g p final) (hp : p.session.Underway) :
    final.2.log.length ≤ p.session.log.length + p.left := by
  cases h with
  | completes | dangles | exceeds => exact Nat.le_add_right _ _
  | @stops left viaFailure id step s s' hid hvisit
  | @breaks left viaFailure id step s s' err hid hvisit =>
    have hlength := visit_log_length he g step hp viaFailure
    rw [hvisit] at hlength
    simp only at hlength ⊢
    omega

theorem calls_length_le (he : e.registry.Calm) (launch : Launch) (h : s.world.outage = none) :
    (e.calls launch s).length ≤ e.config.maxVisits := by
  rw [calls]
  have hcalm : (s.logging []).world.outage = none := h
  rcases launch.act_halts (logged_calm he) hcalm with
    ⟨final, hact, hfinal⟩ | ⟨t, p, q, ht, henters, hpasses, hhalts⟩
  · rw [hact]
    rcases hfinal with ⟨err, -, rfl⟩ | ⟨err, -, rfl⟩ | rfl <;> exact Nat.zero_le _
  · have hunderway := henters.underway hcalm
    have hpassed := hpasses.log_length he hunderway
    have hhalted := hhalts.log_length he (hpasses.underway (logged_calm he) hunderway)
    rw [henters.log_eq, henters.left_eq] at hpassed
    calc (launch.act e.logged (s.logging [])).2.log.length
        ≤ q.session.log.length + q.left := hhalted
      _ ≤ (s.logging []).log.length + e.config.maxVisits := hpassed
      _ = e.config.maxVisits := Nat.zero_add _

/-! ### Executions -/

/-- A visit adds one execution at most, even if somebody cancels the case meanwhile. -/
theorem visit_executions_length (he : e.registry.Calm) (hspares : e.registry.Spares s.record.id)
    (g : StepGraph) (step : Step) (h : s.Underway) (viaFailure : Bool) :
    (e.visit g step viaFailure s).2.record.executions.length ≤ s.record.executions.length + 1 := by
  rcases visit_yields_or_brokenOff he g step h viaFailure with
    hyields | ⟨r, hexecutor, hr, hbroken⟩
  · generalize e.visit g step viaFailure s = final at hyields
    cases hyields with
    | givesUp => exact Nat.le_succ _
    | skips => exact Nat.le_of_eq List.length_append
    | pauses _ output =>
      rw [Visit.pausedIn_executions]
      exact Nat.le_of_eq List.length_append
    | @goesOn _ f _ next via =>
      show (Visit.settledIn s step (e.worldBehind step s) f).record.executions.length ≤ _
      rw [Visit.settledIn_executions]
      exact Nat.le_of_eq List.length_append
    | fails _ message reason =>
      show (Visit.settledIn s step (e.worldBehind step s) _).record.executions.length ≤ _
      rw [Visit.settledIn_executions]
      exact Nat.le_of_eq List.length_append
  · obtain ⟨reason, now, later, rfl⟩ := withdrawn_of_cancelledAs hspares h hexecutor hr
    rw [hbroken, Session.brokenOff_executions_length]
    exact Nat.le_of_eq List.length_append

/-- Each visit behind which the case goes on adds one execution. -/
theorem Passes.executions_length (he : e.registry.Calm) (h : e.Passes g p q)
    (hp : p.session.Underway) :
    q.session.record.executions.length + q.left = p.session.record.executions.length + p.left := by
  induction h with
  | here => rfl
  | visit hid hvisit _ ih =>
    obtain ⟨-, x, hexecutions, -⟩ := goOn_cases he hp hvisit
    have hlength := congrArg List.length hexecutions
    rw [List.length_append, List.length_singleton] at hlength
    have hrest := ih (visit_underway he hp hvisit)
    simp only at hlength hrest ⊢
    omega

theorem Halts.executions_length (he : e.registry.Calm)
    (hspares : e.registry.Spares p.session.record.id) (h : e.Halts g p final)
    (hp : p.session.Underway) :
    final.2.record.executions.length ≤ p.session.record.executions.length + p.left := by
  cases h with
  | completes | dangles | exceeds => exact Nat.le_add_right _ _
  | @stops left viaFailure id step s s' hid hvisit
  | @breaks left viaFailure id step s s' err hid hvisit =>
    have hlength := visit_executions_length he hspares g step hp viaFailure
    rw [hvisit] at hlength
    simp only at hlength ⊢
    omega

theorem Enters.executions_length (h : e.Enters t s launch p) :
    p.session.record.executions.length = s.record.executions.length := by
  cases h with
  | start => rfl
  | resume =>
    obtain ⟨executions, readings, -, hmended, hmatures, -⟩ := mended_eq s
    rw [resumedAt, hmended]
    split <;> exact hmatures.length_eq.symm

theorem executions_length_le (he : e.registry.Calm) (hspares : e.registry.Spares s.record.id)
    (launch : Launch) (h : s.world.outage = none) :
    (launch.act e s).2.record.executions.length ≤
      s.record.executions.length + e.config.maxVisits := by
  rcases launch.act_halts he h with
    ⟨final, hact, hfinal⟩ | ⟨t, p, q, ht, henters, hpasses, hhalts⟩
  · rw [hact]
    rcases hfinal with ⟨err, -, rfl⟩ | ⟨err, -, rfl⟩ | rfl <;> exact Nat.le_add_right _ _
  · have hunderway := henters.underway h
    have hid : q.session.record.id = s.record.id :=
      CaseRecord.id_eq_of_origin ((hpasses.origin he hunderway).trans henters.origin)
    rw [← hid] at hspares
    calc (launch.act e s).2.record.executions.length
        ≤ q.session.record.executions.length + q.left :=
          hhalts.executions_length he hspares (hpasses.underway he hunderway)
      _ = p.session.record.executions.length + p.left := hpasses.executions_length he hunderway
      _ = s.record.executions.length + e.config.maxVisits := by
          rw [henters.executions_length, henters.left_eq]

/-! ### Runs that the limit ends -/

/-- The run that the command leads to comes to a point at which no visit is left, but the step is to
be visited. -/
def Exhausts (e : Engine σ) (s : Session σ) (launch : Launch) (id : String) : Prop :=
  ∃ t p, s.Bound t ∧ e.RunsThrough t s launch p ∧ p.left = 0 ∧ p.next = some id

/-- Nothing has to be known of an engine for it to keep to the steps of a valid template. -/
theorem upkeep_nothing (e : Engine σ) : Upkeep e (fun _ => True) fun _ => True := by
  constructor <;> intros <;> trivial

theorem goOn_known (ht : t.validate = .ok ()) (hstep : step ∈ t.steps) {viaFailure via : Bool}
    {next : Option String}
    (hvisit : e.visit (.ofTemplate t) step viaFailure s = (.ok (.goOn next via), s')) :
    t.Knows next := by
  have hsound := (upkeep_nothing e).ensures_visit (.any _ _) (t := t) trivial ht hstep viaFailure s
    trivial
  rw [hvisit] at hsound
  exact hsound.2

theorem Passes.known (h : e.Passes (.ofTemplate t) p q) (ht : t.validate = .ok ())
    (hp : t.Knows p.next) : t.Knows q.next := by
  induction h with
  | here => exact hp
  | visit hid hvisit _ ih => exact ih (goOn_known ht (StepGraph.mem_of_step? hid).1 hvisit)

theorem Enters.known (h : e.Enters t s launch p) : t.Knows p.next := by
  cases h with
  | start _ hordered => exact Template.knows_id (Template.mem_ordered.1 (by simp [hordered]))
  | resume _ _ hid => exact Template.knows_iff_step?.2 hid

/-- Only the lack of an executor makes a visit end with an error. -/
theorem visit_error_eq (he : e.registry.Calm) (h : s.Underway) {viaFailure : Bool}
    {err : EngineError} (hvisit : e.visit g step viaFailure s = (.error err, s')) :
    err = .noExecutor step.id step.type := by
  rcases visit_leads_or_brokenOff he g step h viaFailure with hleads | ⟨_, _, _, hbroken⟩
  · rw [hvisit] at hleads
    exact (CaseRecord.Gist.visit_error hleads.result.symm).1
  · cases hvisit.symm.trans hbroken

/-- What a command comes to that is out of visits. -/
theorem Exhausts.act_eq {id : String} (h : e.Exhausts s launch id) (he : e.registry.Calm)
    (hcalm : s.world.outage = none) :
    let err := EngineError.tooManyVisits e.config.maxVisits
    ∃ s' : Session σ, launch.act e s = (.error err, s'.failed err.message) ∧
      s'.record.currentStep = some id ∧
      s'.record.executions.length = s.record.executions.length + e.config.maxVisits := by
  obtain ⟨t, ⟨left, viaFailure, next, s'⟩, ht, hp, rfl, rfl⟩ := h
  have hact := hp.act_eq he hcalm ht
  obtain ⟨entry, henters, hpasses⟩ := hp
  have hunderway := henters.underway hcalm
  obtain ⟨step, hid⟩ := StepGraph.exists_step?_of_knows (hpasses.known ht.2 henters.known)
  have hhalts : e.Halts (.ofTemplate t) ⟨0, viaFailure, some id, s'⟩ _ := .exceeds hid
  refine ⟨s', hact.trans (hhalts.runOn_eq (hpasses.underway he hunderway)),
    hpasses.current he hunderway henters.current, ?_⟩
  have hlength := hpasses.executions_length he hunderway
  rw [henters.executions_length, henters.left_eq] at hlength
  exact hlength

theorem exhausts_of_tooManyVisits (he : e.registry.Calm) (hcalm : s.world.outage = none)
    {limit : Nat} (h : (launch.act e s).1 = .error (.tooManyVisits limit)) :
    ∃ id, e.Exhausts s launch id := by
  rcases launch.act_halts he hcalm with
    ⟨final, hact, hfinal⟩ | ⟨t, p, q, ht, henters, hpasses, hhalts⟩
  · rw [hact] at h
    rcases hfinal with ⟨err, hrefusal, rfl⟩ | ⟨err, hblames, rfl⟩ | rfl
    · obtain rfl := Except.error.inj h
      cases hrefusal
    · obtain rfl := Except.error.inj h
      cases hblames
    · cases h
  · have hq := hpasses.underway he (henters.underway hcalm)
    generalize launch.act e s = final at h hhalts
    cases hhalts with
    | completes | dangles | stops => cases h
    | @exceeds viaFailure id step s' hid => exact ⟨id, t, _, ht, ⟨_, henters, hpasses⟩, rfl, rfl⟩
    | breaks hid hvisit =>
      obtain rfl := Except.error.inj h
      cases visit_error_eq he hq hvisit

/-! ### Runs that the limit does not end -/

/-- The engine with another limit. -/
def limitedTo (e : Engine σ) (maxVisits : Nat) : Engine σ := ⟨e.registry, ⟨maxVisits⟩⟩

theorem Passes.plus (h : e.Passes g p q) (maxVisits more : Nat) :
    (e.limitedTo maxVisits).Passes g (p.plus more) (q.plus more) := by
  induction h with
  | here p => exact .here _
  | @visit left _ _ _ _ _ _ _ _ hid hvisit _ ih =>
    rw [Point.plus, Nat.add_right_comm]
    exact .visit hid hvisit ih

theorem Halts.plus (h : e.Halts g p final)
    (hends : final.1 ≠ .error (.tooManyVisits e.config.maxVisits)) (maxVisits more : Nat) :
    (e.limitedTo maxVisits).Halts g (p.plus more) final := by
  cases h with
  | completes => exact .completes
  | dangles hid => exact .dangles hid
  | exceeds => exact absurd rfl hends
  | stops hid hvisit =>
    rw [Point.plus, Nat.add_right_comm]
    exact .stops hid hvisit
  | breaks hid hvisit =>
    rw [Point.plus, Nat.add_right_comm]
    exact .breaks hid hvisit

/-- A command that does not run out of visits comes to the same with more of them. -/
theorem act_limitedTo (he : e.registry.Calm) (hcalm : s.world.outage = none)
    (hends : (launch.act e s).1 ≠ .error (.tooManyVisits e.config.maxVisits)) {maxVisits : Nat}
    (hmore : e.config.maxVisits ≤ maxVisits) :
    launch.act (e.limitedTo maxVisits) s = launch.act e s := by
  rcases launch.act_cases hcalm with ⟨final, hact, -⟩ | ⟨t, id, s', ht, henters⟩
  · rw [hact, hact]
  · have hrun := (henters e).runOn_eq hcalm ht
    have hunderway := (henters e).underway hcalm
    obtain ⟨q, hpasses, hhalts⟩ := exists_halts he (.ofTemplate t) _ hunderway
    rw [hrun] at hends
    obtain ⟨more, rfl⟩ := Nat.exists_eq_add_of_le hmore
    have he' : (e.limitedTo (e.config.maxVisits + more)).registry.Calm := he
    have hq : q.session.Underway := hpasses.underway he hunderway
    have hpasses' := hpasses.plus (e.config.maxVisits + more) more
    have hhalts' := hhalts.plus hends (e.config.maxVisits + more) more
    rw [hrun, (henters _).runOn_eq hcalm ht]
    exact (hpasses'.runOn_eq he' hunderway).trans (hhalts'.runOn_eq hq)

theorem calls_limitedTo (he : e.registry.Calm) (hcalm : s.world.outage = none)
    (hends : (launch.act e s).1 ≠ .error (.tooManyVisits e.config.maxVisits)) {maxVisits : Nat}
    (hmore : e.config.maxVisits ≤ maxVisits) :
    (e.limitedTo maxVisits).calls launch s = e.calls launch s := by
  have hresult := (act_logged e launch s []).1
  have hact : launch.act (e.logged.limitedTo maxVisits) (s.logging []) =
      launch.act e.logged (s.logging []) :=
    act_limitedTo (logged_calm he) hcalm (hresult ▸ hends) hmore
  exact congrArg (·.2.log) hact

/-! ### The limit -/

/-- What the limit comes to. -/
structure Limited (e : Engine σ) (s : Session σ) (launch : Launch) : Prop where
  calls : (e.calls launch s).length ≤ e.config.maxVisits
  executions : e.registry.Spares s.record.id → (launch.act e s).2.record.executions.length ≤
    s.record.executions.length + e.config.maxVisits
  exceeded_iff : (launch.act e s).1 = .error (.tooManyVisits e.config.maxVisits) ↔
    ∃ id, e.Exhausts s launch id
  exceeded : ∀ {id}, e.Exhausts s launch id →
    let s' := (launch.act e s).2
    s'.Stored ∧ s'.record.status = .failed ∧ s'.record.currentStep = some id ∧
      s'.record.error = some (EngineError.tooManyVisits e.config.maxVisits).message ∧
      s'.record.executions.length = s.record.executions.length + e.config.maxVisits
  immaterial : (launch.act e s).1 ≠ .error (.tooManyVisits e.config.maxVisits) →
    ∀ maxVisits ≥ e.config.maxVisits,
      launch.act (e.limitedTo maxVisits) s = launch.act e s ∧
        (e.limitedTo maxVisits).calls launch s = e.calls launch s

/-- The limit bounds what a command does, ends its run exactly if the run is out of visits, and does
not matter otherwise. -/
theorem run_limited (he : e.registry.Calm) (launch : Launch) (hcalm : s.world.outage = none) :
    e.Limited s launch where
  calls := calls_length_le he launch hcalm
  executions hspares := executions_length_le he hspares launch hcalm
  exceeded_iff := by
    refine ⟨exhausts_of_tooManyVisits he hcalm, ?_⟩
    rintro ⟨id, hexhausts⟩
    obtain ⟨s', hact, -⟩ := hexhausts.act_eq he hcalm
    rw [hact]
  exceeded hexhausts := by
    obtain ⟨s', hact, hcurrent, hlength⟩ := hexhausts.act_eq he hcalm
    rw [hact]
    exact ⟨Session.failed_stored .., rfl, hcurrent, rfl, hlength⟩
  immaterial hends _ hmore :=
    ⟨act_limitedTo he hcalm hends hmore, calls_limitedTo he hcalm hends hmore⟩

end Engine

/-! ### A subscription that is renewed over and over -/

namespace Subscription

def renew : Executor Unit := fun _ _ _ w => (.result (.succeeded "renewed"), w)

def renewal : Step := ⟨"renew", "Renewal", .calculation, 1, none, true, some "renew", none⟩

def template : Template where
  id := "subscription"
  version := 1
  name := "Subscription"
  description := none
  steps := [renewal]
  publishedAt := some ⟨0⟩

def engine : Engine Unit := ⟨Registry.empty.insert .calculation renew, ⟨1⟩⟩

theorem calm : engine.registry.Calm := by
  intro type x hx step execution record w hcalm
  cases type with
  | calculation =>
    obtain rfl := Option.some.inj hx
    exact hcalm
  | decisionTable | humanTask | clientApproval | documentGeneration => exact nomatch hx

def opened : Session Unit := .opened template ()

/-- The subscription has been renewed, and is to be renewed again. -/
def renewed : Point Unit where
  left := 0
  viaFailure := false
  next := some "renew"
  session :=
    (engine.visit (.ofTemplate template) renewal false (Engine.startedAt opened renewal)).2

theorem exhausts : engine.Exhausts opened .start "renew" := by
  have hbound : opened.Bound template := ⟨(Session.opened_fresh template ()).template, by rfl⟩
  have hordered : template.ordered = [renewal] := List.mergeSort_singleton _
  have hgraph : StepGraph.ofTemplate template = ⟨[renewal]⟩ := congrArg StepGraph.mk hordered
  have hid : (StepGraph.ofTemplate template).step? "renew" = some renewal := by
    rw [hgraph]
    rfl
  have hvisit : (engine.visit (.ofTemplate template) renewal false
      (Engine.startedAt opened renewal)).1 = .ok (.goOn (some "renew") false) := by
    rw [hgraph]
    rfl
  exact ⟨template, renewed, hbound,
    ⟨_, .start rfl hordered, .visit hid (Prod.ext hvisit rfl) (.here _)⟩, rfl, rfl⟩

end Subscription

namespace Engine

open Subscription in
/-- It is renewed once, and that is all. -/
theorem run_limited_subscription : engine.Limited opened .start ∧
    (engine.start opened).1 = .error (.tooManyVisits 1) ∧
    (engine.start opened).2.record.currentStep = some "renew" := by
  have hlimited : engine.Limited opened .start := run_limited calm .start rfl
  exact ⟨hlimited, hlimited.exceeded_iff.2 ⟨_, exhausts⟩, (hlimited.exceeded exhausts).2.2.1⟩

end Engine

end Casework
