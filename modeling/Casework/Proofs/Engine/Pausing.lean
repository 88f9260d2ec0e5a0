import Casework.Proofs.Engine.Alike
import Casework.Proofs.Template.Order
import Mathlib.Logic.Function.Basic

/-!
# Pausing makes no difference

Take executors that pause and the same executors with every pause turned into a plain success. If
what they reply depends only on the step, the input, the data of the case and what they remember, the
case that pauses, and is resumed as often as it does, ends like the one that never pauses.

Between two visits the two cases are twins, which go alike. A pause takes one of them out of its run,
but `resume` puts it back to where its twin stands.
-/

namespace Casework

variable {σ μ : Type}

/-! ### Executors with and without pauses -/

/-- A pause turned into a success. -/
def Reply.unpaused : Reply → Reply
  | .result r => if r.pause then .result ⟨true, r.output, none, false⟩ else .result r
  | reply => reply

def Executor.unpaused (x : Executor σ) : Executor σ := fun step execution record => do
  return (← x step execution record).unpaused

def Registry.unpaused (reg : Registry σ) : Registry σ :=
  ⟨fun type => (reg.executor? type).map Executor.unpaused⟩

def Engine.unpaused (e : Engine σ) : Engine σ := { e with registry := e.registry.unpaused }

namespace Encounter

/-- A pause turned into a success. -/
def unpaused : Encounter → Encounter
  | .outcome input (.pause output) => .outcome input (.success output)
  | met => met

end Encounter

namespace Reply

theorem outcome_unpaused (reply : Reply) (input : String) :
    Encounter.outcome input reply.unpaused.outcome =
      (Encounter.outcome input reply.outcome).unpaused := by
  cases reply with
  | result r =>
    by_cases hpause : r.pause
    · simp [unpaused, outcome, StepResult.outcome, Encounter.unpaused, hpause]
    · by_cases hsuccess : r.success <;>
        simp [unpaused, outcome, StepResult.outcome, Encounter.unpaused, hpause, hsuccess]
  | error causes => rfl
  | crash message => rfl

end Reply

theorem Registry.Discreet.unpaused {reg : Registry σ} (h : reg.Discreet) :
    reg.unpaused.Discreet := by
  intro type x hx
  obtain ⟨y, hy, rfl⟩ := Option.map_eq_some_iff.1 hx
  exact ⟨(h hy).records, (h hy).templates, (h hy).outage⟩

namespace Engine

theorem called_unpaused (e : Engine σ) (step : Step) (s : Session σ) :
    e.unpaused.called step s = (e.called step s).map fun (reply, w) => (reply.unpaused, w) := by
  simp only [called, unpaused, Registry.unpaused]
  cases e.registry.executor? step.type <;> rfl

theorem encounter_unpaused (e : Engine σ) (step : Step) (s : Session σ) :
    e.unpaused.encounter step s = (e.encounter step s).unpaused := by
  rw [encounter, encounter, called_unpaused]
  cases e.called step s with
  | none => rfl
  | some answer => exact answer.1.outcome_unpaused s.input

theorem worldBehind_unpaused (e : Engine σ) (step : Step) (s : Session σ) :
    e.unpaused.worldBehind step s = e.worldBehind step s := by
  rw [worldBehind, worldBehind, called_unpaused]
  cases e.called step s <;> rfl

/-- The case resumed for as long as it is paused, so often at most. -/
def resumed (e : Engine σ) : Nat → Session σ → Session σ
  | 0, s => s
  | n + 1, s => if s.record.status = .paused then e.resumed n (e.resume s).2 else s

end Engine

/-! ### Twins -/

/-- Two cases that go alike on a template, neither of which has an execution that is not finished. -/
structure Twins (remember : σ → μ) (t : Template) (s s' : Session σ) : Prop
    extends Alike remember s s' where
  bound : s.Bound t
  finished : Execution.AllFinished s.record.gist.marks

/-- Twins that go on alike are still twins. -/
theorem Twins.of_continues {remember : σ → μ} {t : Template} {s s' f f' : Session σ}
    (h : Twins remember t s s') (hf : s.Continues f) (halike : Alike remember f f')
    (htemplates : f.world.store.templates = s.world.store.templates)
    (hfinished : Execution.AllFinished f.record.gist.marks) : Twins remember t f f' where
  toAlike := halike
  bound := h.bound.of_origin hf.origin htemplates
  finished := hfinished

namespace CaseRecord.Gist

/-- Only a pause makes a case paused. -/
theorem visit_status_ne_paused {g : StepGraph} {step : Step} {viaFailure : Bool} {a : Gist}
    {met : Encounter} (hrunning : a.status = .running)
    (hmet : ∀ input output, met ≠ .outcome input (.pause output)) :
    (a.visit g step viaFailure met).2.status ≠ .paused := by
  cases met with
  | noExecutor =>
    by_cases hvia : viaFailure
    · simp [visit, hvia, failedWith]
    · by_cases hrequired : step.required <;>
        simp [visit, hvia, hrequired, failedWith, extended, hrunning]
  | outcome input o =>
    cases o with
    | pause output => exact absurd rfl (hmet input output)
    | success output => simp [visit, extended, hrunning]
    | failure message =>
      cases hfailure : step.onFailure with
      | some target => simp [visit, hfailure, extended, hrunning]
      | none =>
        by_cases hrequired : step.required <;>
          simp [visit, hfailure, hrequired, failedWith, extended, hrunning]

end CaseRecord.Gist

namespace Engine

variable {remember : σ → μ} {t : Template} {e : Engine σ} {s s' : Session σ}

/-- The case, resumed as often as it pauses, ends with this gist. -/
def EndsAs (e : Engine σ) (s : Session σ) (a : CaseRecord.Gist) : Prop :=
  ∃ n, (e.resumed n s).record.status ≠ .paused ∧ (e.resumed n s).record.gist = a

theorem endsAs_of_over {a : CaseRecord.Gist} (h : s.record.gist = a) (hover : a.status ≠ .paused) :
    e.EndsAs s a :=
  ⟨0, fun hpaused => hover (h ▸ hpaused), h⟩

theorem endsAs_of_resume {a : CaseRecord.Gist} (hpaused : s.record.status = .paused)
    (h : e.EndsAs (e.resume s).2 a) : e.EndsAs s a := by
  obtain ⟨n, hover, hgist⟩ := h
  refine ⟨n + 1, ?_, ?_⟩ <;> rw [resumed, if_pos hpaused]
  · exact hover
  · exact hgist

theorem resumed_of_not_paused (hover : s.record.status ≠ .paused) (n : Nat) :
    e.resumed n s = s := by
  cases n with
  | zero => rfl
  | succ n => rw [resumed, if_neg hover]

theorem resumed_add (m n : Nat) (s : Session σ) :
    e.resumed (m + n) s = e.resumed n (e.resumed m s) := by
  induction m generalizing s with
  | zero => rw [Nat.zero_add, resumed]
  | succ m ih =>
    rw [Nat.succ_add, resumed, resumed]
    by_cases hpaused : s.record.status = .paused
    · rw [if_pos hpaused, if_pos hpaused, ih]
    · rw [if_neg hpaused, if_neg hpaused, resumed_of_not_paused hpaused]

theorem resumed_succ_of_paused (hpaused : s.record.status = .paused) (n : Nat) :
    e.resumed (n + 1) s = e.resumed n (e.resume s).2 := by
  rw [resumed, if_pos hpaused]

/-- Unless the second one takes too many visits, or executions are completed out of order, both come
to the same end. -/
def SameEnd (e : Engine σ) (final final' : Except EngineError Unit × Session σ) : Prop :=
  (∀ limit, final'.1 ≠ .error (.tooManyVisits limit)) →
    (∀ n, Chronological (e.resumed n final.2).record.executions) →
    Chronological final'.2.record.executions → e.EndsAs final.2 final'.2.record.gist

/-- Twins come to the same end, where the first may pause and has as many visits left at least. -/
def SameEnds (e : Engine σ) (remember : σ → μ) (t : Template) (left : Nat) : Prop :=
  ∀ {left' viaFailure id s s'}, left ≤ left' → Twins remember t s s' →
    e.SameEnd (e.runFrom (.ofTemplate t) left' viaFailure id s)
      (e.unpaused.runFrom (.ofTemplate t) left viaFailure id s')

theorem completed_ne_paused : CaseStatus.completed ≠ .paused := by decide

theorem failed_ne_paused : CaseStatus.failed ≠ .paused := by decide

theorem sameEnd_of_dangling {left left' : Nat} {viaFailure : Bool} {id : String}
    (h : Twins remember t s s') (hid : (StepGraph.ofTemplate t).step? id = none) :
    e.SameEnd (e.runFrom (.ofTemplate t) left' viaFailure id s)
      (e.unpaused.runFrom (.ofTemplate t) left viaFailure id s') := by
  intro _ _ _
  rw [runFrom_of_dangling h.underway hid, runFrom_of_dangling h.underway' hid]
  refine endsAs_of_over ?_ failed_ne_paused
  rw [Session.failed_gist, Session.failed_gist, h.gist]

/-- Both have made the same visit, and neither has paused. -/
theorem sameEnd_behind {left left' : Nat} {final final' : Except EngineError Next × Session σ}
    (hleft : left ≤ left') (hnext : e.SameEnds remember t left) (hresult : final.1 = final'.1)
    (hgist : final.2.record.gist = final'.2.record.gist)
    (hstatus : final.2.record.gist.status ≠ .paused)
    (htwins : ∀ next via, final.1 = .ok (.goOn next via) → Twins remember t final.2 final'.2) :
    e.SameEnd (e.runBehind (.ofTemplate t) left' final)
      (e.unpaused.runBehind (.ofTemplate t) left final') := by
  obtain ⟨result, s⟩ := final
  obtain ⟨_, s'⟩ := final'
  obtain rfl := hresult
  cases result with
  | error err => exact fun _ _ _ => endsAs_of_over hgist (hgist ▸ hstatus)
  | ok next =>
    cases next with
    | stop => exact fun _ _ _ => endsAs_of_over hgist (hgist ▸ hstatus)
    | goOn next via =>
      have h := htwins next via rfl
      cases next with
      | none =>
        intro _ _ _
        rw [runBehind, runBehind, complete_apply h.underway.calm h.underway.live,
          complete_apply h.underway'.calm h.underway'.live]
        refine endsAs_of_over ?_ completed_ne_paused
        rw [Session.completed_gist, Session.completed_gist, h.gist]
      | some next => exact hnext hleft h

/-- The first has paused, and is resumed from where the second goes on. -/
theorem sameEnd_behind_pause {left : Nat} (hmax : left ≤ e.config.maxVisits)
    (hnext : e.SameEnds remember t left) (hpaused : s.record.status = .paused)
    (h : Twins remember t s.launched s') :
    e.SameEnd (.ok (), s) (e.unpaused.runBehind (.ofTemplate t) left
      (.ok (.goOn s.record.currentStep false), s')) := by
  intro hends hinorder hinorder'
  refine endsAs_of_resume (s := s) hpaused ?_
  have hresume := resume_of_paused (e := e) (s := s) h.underway.calm hpaused h.finished h.bound
  have hlater : ∀ n, Chronological (e.resumed n (e.resume s).2).record.executions := by
    intro n
    rw [← resumed_succ_of_paused hpaused]
    exact hinorder (n + 1)
  rw [hresume] at hlater ⊢
  cases hcurrent : s.record.currentStep with
  | none =>
    rw [runBehind, complete_apply h.underway'.calm h.underway'.live]
    refine endsAs_of_over ?_ completed_ne_paused
    rw [Session.completed_gist, Session.completed_gist, ← h.gist]
    rfl
  | some next =>
    rw [hcurrent] at hends hinorder' hlater
    by_cases hdangling : (t.step? next).isNone
    · have hid : (StepGraph.ofTemplate t).step? next = none := by
        rw [← Option.isNone_iff_eq_none, StepGraph.step?_isNone]
        exact hdangling
      simp only [if_pos hdangling]
      rw [runBehind, runFrom_of_dangling h.underway' hid]
      refine endsAs_of_over ?_ failed_ne_paused
      rw [Session.failed_gist, Session.failed_gist, ← h.gist]
      rfl
    · simp only [if_neg hdangling] at hlater ⊢
      exact hnext hmax h hends hlater hinorder'

/-- The first has made a visit that pauses it, the second the same visit without a pause. -/
theorem sameEnd_of_pause {g : StepGraph} {step : Step} {viaFailure : Bool} {left left' : Nat}
    {input : String} {output : Option String} {surroundings surroundings' : Surroundings σ}
    {final final' : Except EngineError Next × Session σ} (hmax : left ≤ e.config.maxVisits)
    (hnext : e.SameEnds remember t left) (h : Twins remember t s s')
    (hleads : Visit.Leads s surroundings
      (s.record.gist.visit g step viaFailure (.outcome input (.pause output))) final)
    (hleads' : Visit.Leads s' surroundings'
      (s.record.gist.visit g step viaFailure (.outcome input (.success output))) final')
    (hcalm : final.2.world.outage = none) (hunderway' : final'.2.Underway)
    (hmemory : remember final.2.world.memory = remember final'.2.world.memory)
    (htemplates : final.2.world.store.templates = s.world.store.templates)
    (hfinished : Execution.AllFinished final.2.record.gist.marks) :
    e.SameEnd (e.runBehind (.ofTemplate t) left' final)
      (e.unpaused.runBehind (.ofTemplate t) left final') := by
  obtain ⟨result, f⟩ := final
  obtain ⟨result', f'⟩ := final'
  have hcurrent : f.record.currentStep = g.afterSuccess step :=
    congrArg CaseRecord.Gist.currentStep hleads.gist
  have hstatus : s.record.gist.status = .running := h.underway.running
  have hgist : f.launched.record.gist = f'.record.gist := by
    rw [hleads'.gist]
    change { f.record.gist with status := .running } = _
    rw [hleads.gist]
    simp only [CaseRecord.Gist.visit, CaseRecord.Gist.extended, hstatus]
  have htwins : Twins remember t f.launched f' :=
    h.of_continues (hleads.continues.trans (Session.launched_continues f))
      (h.toAlike.of_continues (hleads.continues.trans (Session.launched_continues f))
        hleads'.continues (Session.launched_underway hcalm) hunderway' hgist hmemory)
      htemplates hfinished
  have hresult' : result' = .ok (.goOn f.record.currentStep false) := by
    rw [hcurrent]
    exact hleads'.result
  obtain rfl : result = .ok .stop := hleads.result
  rw [hresult']
  exact sameEnd_behind_pause hmax hnext (congrArg CaseRecord.Gist.status hleads.gist) htwins

end Engine

namespace Encounter

theorem unpaused_of_ne_pause {met : Encounter}
    (h : ∀ input output, met ≠ .outcome input (.pause output)) : met.unpaused = met := by
  match met with
  | .noExecutor => rfl
  | .outcome input (.pause output) => exact absurd rfl (h input output)
  | .outcome _ (.success _) => rfl
  | .outcome _ (.failure _) => rfl

end Encounter

namespace Engine

variable {remember : σ → μ} {t : Template} {e : Engine σ} {s s' : Session σ}

theorem sameEnds (he : e.registry.Repeatable remember) {left : Nat}
    (hmax : left ≤ e.config.maxVisits) : e.SameEnds remember t left := by
  induction left with
  | zero =>
    intro left' viaFailure id s s' _ h
    cases hid : (StepGraph.ofTemplate t).step? id with
    | none => exact sameEnd_of_dangling h hid
    | some step =>
      intro hends
      refine absurd ?_ (hends e.unpaused.config.maxVisits)
      rw [runFrom_zero h.underway' hid]
  | succ left ih =>
    intro left' viaFailure id s s' hleft h
    cases hid : (StepGraph.ofTemplate t).step? id with
    | none => exact sameEnd_of_dangling h hid
    | some step =>
      obtain ⟨left', rfl⟩ : ∃ n, left' = n + 1 := ⟨left' - 1, by omega⟩
      intro hends hinorder hinorder'
      have hd : e.registry.Discreet := he.discreet
      have hd' : e.unpaused.registry.Discreet := hd.unpaused
      have hinput := h.input_of_runs hd hd' (hinorder 0) hinorder'
      have hmet : e.unpaused.encounter step s' = (e.encounter step s).unpaused := by
        rw [encounter_unpaused, h.encounter he hinput]
      have hleads := @visit_leads σ e hd (.ofTemplate t) step s h.underway.calm
        h.underway.running viaFailure
      have hleads' := @visit_leads σ e.unpaused hd' (.ofTemplate t) step s' h.underway'.calm
        h.underway'.running viaFailure
      have hmemory : remember (e.visit (.ofTemplate t) step viaFailure s).2.world.memory =
          remember (e.unpaused.visit (.ofTemplate t) step viaFailure s').2.world.memory := by
        rw [hleads.memory, hleads'.memory, World.surroundings, World.surroundings,
          worldBehind_unpaused, h.memoryBehind he hinput]
      have hcalm := hleads.outage.trans ((worldBehind_outage hd step s).trans h.underway.calm)
      have htemplates := hleads.templates.trans (worldBehind_templates hd step s)
      have hfinished : Execution.AllFinished
          (e.visit (.ofTemplate t) step viaFailure s).2.record.gist.marks := by
        rw [hleads.gist]
        exact CaseRecord.Gist.visit_allFinished _ h.finished
      rw [hmet, ← h.gist] at hleads'
      rw [runFrom_succ h.underway' hid] at hends hinorder' ⊢
      rw [runFrom_succ h.underway hid] at hinorder ⊢
      by_cases hpause : ∃ input output, e.encounter step s = .outcome input (.pause output)
      · obtain ⟨input, output, hpause⟩ := hpause
        rw [hpause] at hleads hleads'
        refine sameEnd_of_pause (by omega) (ih (by omega)) h hleads hleads' hcalm ?_ hmemory
          htemplates hfinished hends hinorder hinorder'
        exact visit_underway hd'.calm h.underway' (Prod.ext hleads'.result rfl)
      · have hsame : ∀ input output, e.encounter step s ≠ .outcome input (.pause output) := by
          intro input output hmet
          exact hpause ⟨input, output, hmet⟩
        rw [Encounter.unpaused_of_ne_pause hsame] at hleads'
        have hresult := hleads.result.trans hleads'.result.symm
        have hgist := hleads.gist.trans hleads'.gist.symm
        refine sameEnd_behind (by omega) (ih (by omega)) hresult hgist ?_ ?_ hends hinorder hinorder'
        · rw [hleads.gist]
          exact CaseRecord.Gist.visit_status_ne_paused h.underway.running hsame
        · intro next via hgoOn
          refine h.of_continues hleads.continues ?_ htemplates hfinished
          exact h.toAlike.of_continues hleads.continues hleads'.continues
            (visit_underway hd.calm h.underway (Prod.ext hgoOn rfl))
            (visit_underway hd'.calm h.underway' (Prod.ext (hresult.symm.trans hgoOn) rfl))
            hgist hmemory

theorem sameEnd_start (he : e.registry.Repeatable remember) {data : Dictionary String}
    (hfresh : s.Fresh t data) (ht : t.validate = .ok ()) :
    e.SameEnd (e.start s) (e.unpaused.start s) := by
  have hbound : s.Bound t := ⟨hfresh.template, ht⟩
  intro hends hinorder hinorder'
  rw [start_apply hfresh.calm hfresh.status hbound] at hends hinorder hinorder' ⊢
  rw [start_apply hfresh.calm hfresh.status hbound]
  cases hordered : t.ordered with
  | nil => exact endsAs_of_over rfl completed_ne_paused
  | cons first others =>
    rw [hordered] at hends hinorder hinorder'
    have hunderway : (startedAt s first).Underway := Session.launched_underway hfresh.calm
    have htwins : Twins remember t (startedAt s first) (startedAt s first) := by
      refine ⟨⟨hunderway, hunderway, rfl, rfl, rfl⟩, hbound, ?_⟩
      intro m hm
      rw [show (startedAt s first).record.gist.marks = s.record.gist.marks from rfl,
        hfresh.marks] at hm
      cases hm
    exact sameEnds he (Nat.le_refl _) (Nat.le_refl _) htwins hends hinorder hinorder'

end Engine

/-! ### Executors that count

Of the kind that the theorem is about are the executors whose reply depends on the step, the input,
the data of the case and on how often they were called for the step before. -/

namespace Executor

def counting (answer : Step → Option String → Dictionary String → Nat → Reply) :
    Executor (String → Nat) := fun step execution record w =>
  (answer step execution.input record.data (w.memory step.id),
    { w with memory := Function.update w.memory step.id (w.memory step.id + 1) })

theorem counting_repeatable
    (answer : Step → Option String → Dictionary String → Nat → Reply) :
    (counting answer).Repeatable id where
  records _ _ _ _ := rfl
  templates _ _ _ _ := rfl
  outage _ _ _ _ := rfl
  reply step e e' r r' w w' hinput hdata hmemory := by
    have hmemory : w.memory = w'.memory := hmemory
    simp only [counting, hinput, hdata, hmemory]
  remembers step e e' r r' w w' _ _ hmemory := by
    have hmemory : w.memory = w'.memory := hmemory
    simp only [counting, hmemory]

end Executor

/-! ### A case that pauses twice

Somebody signs, the paper cannot be read, and so it is signed once more. -/

namespace Signing

def file : Step := ⟨"file", "Filing", .documentGeneration, 2, none, true, none, some "sign"⟩

def sign : Step := ⟨"sign", "Signature", .clientApproval, 1, none, true, none, none⟩

def template : Template where
  id := "signing"
  version := 1
  name := "Signing"
  description := none
  steps := [file, sign]
  publishedAt := some ⟨0⟩

def engine : Engine (String → Nat) where
  registry := (Registry.empty.insert .clientApproval
    (.counting fun _ _ _ n => .result (.paused (toString n)))).insert .documentGeneration
      (.counting fun _ input _ n =>
        if n = 0 then .error ["illegible"] else .result (.succeeded (input.getD "")))
  config := .default

def world : World (String → Nat) where
  store := { Store.empty with templates := Register.empty.insert template }
  clock n := ⟨n⟩
  readings := 0
  ids n := ⟨n⟩
  drawn := 0
  outage := none
  memory _ := 0

def opened : CaseRecord := .new ⟨0⟩ "case" template .empty ⟨0⟩

def worldOpened : World (String → Nat) :=
  { world with store := world.store.saveRecord opened, readings := 1, drawn := 1 }

theorem repeatable : engine.registry.Repeatable id := by
  intro type x hx
  cases type with
  | clientApproval =>
    obtain rfl := Option.some.inj hx
    exact Executor.counting_repeatable _
  | documentGeneration =>
    obtain rfl := Option.some.inj hx
    exact Executor.counting_repeatable _
  | decisionTable | calculation | humanTask => exact nomatch hx

theorem ordered_eq : template.ordered = [sign, file] :=
  Template.ordered_eq_of_pairwise rfl (.swap ..) (by decide)

/-- The case as it pauses, as it pauses once more, and at its end. -/
def signed : Session (String → Nat) :=
  (engine.runFrom ⟨[sign, file]⟩ 1000 false "sign" (Engine.startedAt ⟨opened, worldOpened⟩ sign)).2

def signedAgain : Session (String → Nat) :=
  (engine.runFrom ⟨[sign, file]⟩ 1000 false "file" (Engine.resumedAt signed)).2

def filed : Session (String → Nat) :=
  (engine.runFrom ⟨[sign, file]⟩ 1000 false "file" (Engine.resumedAt signedAgain)).2

theorem start_opened : (engine.start ⟨opened, worldOpened⟩).2 = signed := by
  rw [Engine.start_eq_runFrom rfl rfl ⟨rfl, rfl⟩ ordered_eq]
  rfl

theorem resume_filing {s : Session (String → Nat)} (hcalm : s.world.outage = none)
    (hpaused : s.record.status = .paused) (hcurrent : s.record.currentStep = some "file")
    (hbound : s.Bound template) : (engine.resume s).2 =
      (engine.runFrom ⟨[sign, file]⟩ 1000 false "file" (Engine.resumedAt s)).2 := by
  rw [Engine.resume_eq_runFrom hcalm (.inr hpaused) hbound ordered_eq hcurrent rfl]
  rfl

theorem resumed_one : engine.resumed 1 signed = signedAgain := by
  have hpaused : signed.record.status = .paused := by decide +kernel
  rw [Engine.resumed, if_pos hpaused, Engine.resumed]
  exact resume_filing (by decide +kernel) hpaused (by decide +kernel)
    ⟨by decide +kernel, rfl⟩

theorem resumed_two : engine.resumed 2 signed = filed := by
  have hpaused : signedAgain.record.status = .paused := by decide +kernel
  rw [Engine.resumed_add 1 1, resumed_one, Engine.resumed, if_pos hpaused, Engine.resumed]
  exact resume_filing (by decide +kernel) hpaused (by decide +kernel)
    ⟨by decide +kernel, rfl⟩

theorem unpaused_start : (engine.unpaused.start ⟨opened, worldOpened⟩).1 = .ok () ∧
    (engine.unpaused.start ⟨opened, worldOpened⟩).2.record.executions.map (·.completedAt) =
      [⟨5⟩, ⟨9⟩, ⟨13⟩, ⟨17⟩].map some := by
  rw [Engine.start_eq_runFrom rfl rfl ⟨rfl, rfl⟩ ordered_eq]
  decide +kernel

end Signing

/-! ### The end of a case that pauses -/

namespace Engine

variable {remember : σ → μ} {e : Engine σ}

/-- A case that pauses, and is resumed as long as it is paused, ends with the same status, error,
step and executions as the case that does not pause. -/
theorem resumed_gist_eq_unpaused (he : e.registry.Repeatable remember) {w w' : World σ}
    (hcalm : w.outage = none) {caseId templateId : String} {version : Option Nat}
    {data : Dictionary String} {r : CaseRecord}
    (hopen : openCase caseId templateId version data w = (.ok r, w'))
    (ht : ∀ t, w'.store.template? r.templateId r.templateVersion = some t → t.validate = .ok ())
    (hends : ∀ limit, (e.unpaused.start ⟨r, w'⟩).1 ≠ .error (.tooManyVisits limit))
    (hinorder : ∀ n, Chronological (e.resumed n (e.start ⟨r, w'⟩).2).record.executions)
    (hinorder' : Chronological (e.unpaused.start ⟨r, w'⟩).2.record.executions) :
    ∃ n, (e.resumed n (e.start ⟨r, w'⟩).2).record.status ≠ .paused ∧
      (e.resumed n (e.start ⟨r, w'⟩).2).record.gist =
        (e.unpaused.start ⟨r, w'⟩).2.record.gist := by
  obtain ⟨t, hfresh, -⟩ := openCase_fresh hcalm hopen
  exact sameEnd_start he hfresh (ht t hfresh.template) hends hinorder hinorder'

open Signing in
theorem resumed_gist_eq_unpaused_signing :
    ∃ n, (engine.resumed n (engine.start ⟨opened, worldOpened⟩).2).record.status ≠ .paused ∧
      (engine.resumed n (engine.start ⟨opened, worldOpened⟩).2).record.gist =
        (engine.unpaused.start ⟨opened, worldOpened⟩).2.record.gist := by
  obtain ⟨hends, htimes⟩ := unpaused_start
  refine resumed_gist_eq_unpaused Signing.repeatable (w := world) (r := opened) rfl
    (rfl : openCase "case" "signing" none .empty world = _) ?_ ?_ ?_ ?_
  · intro t ht
    obtain rfl := Option.some.inj ht
    rfl
  · intro limit hlimit
    rw [hends] at hlimit
    cases hlimit
  · intro n
    rw [start_opened]
    rcases n with _ | _ | n
    · have htimes₀ : signed.record.executions.map (·.completedAt) = [⟨5⟩].map some := by
        decide +kernel
      exact chronological_of_times htimes₀ (by decide)
    · have htimes₁ : signedAgain.record.executions.map (·.completedAt) =
          [⟨5⟩, ⟨12⟩, ⟨16⟩].map some := by decide +kernel
      rw [resumed_one]
      exact chronological_of_times htimes₁ (by decide)
    · have htimes₂ : filed.record.executions.map (·.completedAt) =
          [⟨5⟩, ⟨12⟩, ⟨16⟩, ⟨23⟩].map some := by decide +kernel
      have hover : filed.record.status ≠ .paused := by decide +kernel
      rw [Nat.add_assoc, Nat.add_comm, resumed_add, resumed_two, resumed_of_not_paused hover]
      exact chronological_of_times htimes₂ (by decide)
  · exact chronological_of_times htimes (by decide)

end Engine

end Casework
