import Casework.Proofs.Engine.Drive
import Casework.Proofs.Executor.BuiltIn
import Mathlib.Data.List.Chain

/-!
# The executions of a case are a walk through its template

Each execution follows from the one before it along an edge of the template, which depends on how
that one has ended. The walk begins with the first step and never leaves the template. A case that
is paused stands at the end of such an edge, and a case that is completed has followed one past the
last step.

A visit extends the walk by one execution. Between two runs nothing but the record tells where the
walk goes on, so what has to be shown is that the step on record is the end of the last edge.
-/

namespace Casework

variable {σ : Type}

/-! ### Edges -/

namespace Template

/-- Where a step leads when its execution has ended in the given way: to a step, or past the end. -/
inductive Edge (t : Template) (step : Step) : ExecutionStatus → Option String → Prop
  | success {target : String} (h : step.onSuccess = some target) :
      Edge t step .completed (some target)
  | nextAfterSuccess {next : Option String} (h : step.onSuccess = none)
      (hnext : t.NextInOrder step next) : Edge t step .completed next
  | nextAfterSkip {next : Option String} (hnext : t.NextInOrder step next) :
      Edge t step .skipped next
  | failure {target : String} (h : step.onFailure = some target) :
      Edge t step .failed (some target)
  | nextAfterFailure {next : Option String} (h : step.onFailure = none)
      (hoptional : step.required = false) (hnext : t.NextInOrder step next) :
      Edge t step .failed next

/-- Where the case goes on behind an execution. -/
def LeadsTo (t : Template) (m : Execution.Mark) (next : Option String) : Prop :=
  ∃ step ∈ t.steps, step.id = m.stepId ∧ t.Edge step m.status next

/-- What follows the execution is there for its failure. -/
def FailsOver (t : Template) (m : Execution.Mark) : Prop :=
  ∃ step ∈ t.steps, step.id = m.stepId ∧ m.status = .failed ∧ step.onFailure.isSome

end Template

/-- Behind a required step that has failed, and says nothing for that case, nothing follows. -/
theorem Template.not_leadsTo_of_required {t : Template} {step : Step} (ht : t.validate = .ok ())
    (hstep : step ∈ t.steps) (hrequired : step.required) (hfailure : step.onFailure = none)
    {m : Execution.Mark} (hid : m.stepId = step.id) (hfailed : m.status = .failed)
    (next : Option String) : ¬ t.LeadsTo m next := by
  rintro ⟨step', hstep', hid', hedge⟩
  obtain rfl := eq_of_id ht hstep hstep' (hid.symm.trans hid'.symm)
  rw [hfailed] at hedge
  cases hedge with
  | failure h => exact nomatch hfailure.symm.trans h
  | nextAfterFailure _ hoptional _ => exact nomatch hrequired.symm.trans hoptional

theorem Template.LeadsTo.knows {t : Template} {m : Execution.Mark} {next : Option String}
    (ht : t.validate = .ok ()) (h : t.LeadsTo m next) : t.Knows next := by
  obtain ⟨step, hstep, -, hedge⟩ := h
  have horder : ∀ {next}, t.NextInOrder step next → t.Knows next := by
    rintro next (⟨hmem, -, -⟩ | -)
    · exact Template.knows_id hmem
    · exact t.knows_none
  generalize m.status = status at hedge
  cases hedge with
  | success htarget => exact Template.knows_successor ht hstep (by simp [Step.successors, htarget])
  | nextAfterSuccess _ hnext => exact horder hnext
  | nextAfterSkip hnext => exact horder hnext
  | failure htarget => exact Template.knows_successor ht hstep (by simp [Step.successors, htarget])
  | nextAfterFailure _ _ hnext => exact horder hnext

theorem StepGraph.edge_afterSuccess {t : Template} {step : Step} (ht : t.validate = .ok ())
    (hstep : step ∈ t.steps) :
    t.Edge step .completed ((StepGraph.ofTemplate t).afterSuccess step) := by
  rw [afterSuccess]
  cases hsuccess : step.onSuccess with
  | none => exact .nextAfterSuccess hsuccess (nextInOrder_ofTemplate ht hstep)
  | some target => exact .success hsuccess

/-! ### Walks -/

/-- The executions follow the edges of the template, from its first step on. Only steps that are
optional and without an executor are skipped, and never one that is there for a failure. -/
structure Walk (reg : Registry σ) (t : Template) (ms : List Execution.Mark) : Prop where
  begins : ∀ m ∈ ms.head?, ∃ first, t.IsFirst first ∧ m.stepId = first.id
  follows : ms.IsChain fun m n => t.LeadsTo m (some n.stepId)
  skips : ∀ m ∈ ms, m.status = .skipped → ∃ step ∈ t.steps, step.id = m.stepId ∧
    step.required = false ∧ reg.executor? step.type = none
  fallbacks : ms.IsChain fun m n => t.FailsOver m → n.status ≠ .skipped

/-- Where a walk goes on. -/
def Ahead (t : Template) (ms : List Execution.Mark) (next : Option String) : Prop :=
  (ms = [] ∧ ∃ first, t.IsFirst first ∧ next = some first.id) ∨ ∃ m ∈ ms.getLast?, t.LeadsTo m next

namespace Walk

variable {reg : Registry σ} {t : Template} {ms : List Execution.Mark} {n : Execution.Mark}

theorem nil (reg : Registry σ) (t : Template) : Walk reg t [] :=
  ⟨nofun, .nil, nofun, .nil⟩

theorem extend (h : Walk reg t ms) (hahead : Ahead t ms (some n.stepId))
    (hskip : n.status = .skipped → ∃ step ∈ t.steps, step.id = n.stepId ∧
      step.required = false ∧ reg.executor? step.type = none)
    (hfallback : ∀ m ∈ ms.getLast?, t.FailsOver m → n.status ≠ .skipped) :
    Walk reg t (ms ++ [n]) where
  begins := by
    intro m hm
    rcases hahead with ⟨rfl, first, hfirst, hid⟩ | ⟨last, hlast, -⟩
    · obtain rfl : n = m := by simpa using hm
      exact ⟨first, hfirst, Option.some.inj hid⟩
    · have hne : ms ≠ [] := by
        rintro rfl
        exact nomatch hlast
      rw [List.head?_append_of_ne_nil _ hne] at hm
      exact h.begins m hm
  follows := by
    rw [List.isChain_append]
    refine ⟨h.follows, .singleton n, ?_⟩
    intro m hm l hl
    obtain rfl : n = l := by simpa using hl
    rcases hahead with ⟨rfl, -⟩ | ⟨last, hlast, hleads⟩
    · exact nomatch hm
    · obtain rfl := Option.mem_unique hm hlast
      exact hleads
  skips := by
    intro m hm
    rw [List.mem_append, List.mem_singleton] at hm
    rcases hm with hm | rfl
    · exact h.skips m hm
    · exact hskip
  fallbacks := by
    rw [List.isChain_append]
    refine ⟨h.fallbacks, .singleton n, ?_⟩
    intro m hm l hl
    obtain rfl : n = l := by simpa using hl
    exact hfallback m hm

theorem knows (ht : t.validate = .ok ()) (h : Walk reg t ms) :
    ∀ m ∈ ms, t.Knows (some m.stepId) := by
  refine h.follows.induction (fun m => t.Knows (some m.stepId)) ms
    (fun m n hleads _ => hleads.knows ht) fun hne => ?_
  obtain ⟨first, ⟨hmem, -⟩, hid⟩ := h.begins (ms.head hne) (List.head?_eq_some_head hne)
  exact hid ▸ Template.knows_id hmem

end Walk

/-- By induction on the keys: those with the first key are followed by all others. -/
theorem flatMap_filter_perm {α κ : Type} [DecidableEq κ] {key : α → κ} {keys : List κ}
    {as : List α} (hkeys : keys.Nodup) (h : ∀ a ∈ as, key a ∈ keys) :
    (keys.flatMap fun k => as.filter (key · == k)).Perm as := by
  induction keys generalizing as with
  | nil =>
    obtain rfl := List.eq_nil_iff_forall_not_mem.2 fun a ha => List.not_mem_nil (h a ha)
    rfl
  | cons k keys ih =>
    obtain ⟨hfresh, hkeys⟩ := List.nodup_cons.1 hkeys
    have hothers : keys.flatMap (fun k' => as.filter (key · == k')) =
        keys.flatMap fun k' => (as.filter (!key · == k)).filter (key · == k') := by
      refine List.flatMap_congr fun k' hk' => ?_
      rw [List.filter_filter]
      refine List.filter_congr fun a _ => ?_
      have hne : k' ≠ k := fun heq => hfresh (heq ▸ hk')
      by_cases ha : key a = k' <;> simp [ha, hne]
    rw [List.flatMap_cons, hothers]
    refine ((ih hkeys ?_).append_left _).trans (List.filter_append_perm _ _)
    intro a ha
    obtain ⟨hmem, hother⟩ := List.mem_filter.1 ha
    exact (List.mem_cons.1 (h a hmem)).resolve_left (by simpa using hother)

/-- Each execution of a case on a walk belongs to a step of the template, and to one only. -/
theorem CaseRecord.executionsOf_perm {reg : Registry σ} {t : Template} {r : CaseRecord}
    (ht : t.validate = .ok ()) (h : Walk reg t r.gist.marks) :
    (t.steps.flatMap fun step => r.executionsOf step.id).Perm r.executions := by
  have hsteps : ∀ x ∈ r.executions, x.stepId ∈ t.steps.map Step.id := by
    intro x hx
    have hmark : x.gist.mark ∈ r.gist.marks := List.mem_map_of_mem (List.mem_map_of_mem hx)
    obtain ⟨step, hstep, hid⟩ := h.knows ht _ hmark _ rfl
    exact List.mem_map.2 ⟨step, hstep, hid⟩
  have hperm := flatMap_filter_perm (Template.nodup_of_validate ht) hsteps
  rwa [List.flatMap_map] at hperm

/-! ### Cases on a walk -/

namespace CaseRecord.Gist

/-- A case that is on its way to a step, or to the end. -/
structure OnWalk (reg : Registry σ) (t : Template) (next : Option String) (viaFailure : Bool)
    (a : Gist) : Prop where
  walk : Walk reg t a.marks
  ahead : Ahead t a.marks next
  fallback : ∀ m ∈ a.marks.getLast?, t.FailsOver m → viaFailure = true

/-- A case that has come to rest: a paused one where the last edge leads, a completed one behind an
edge past the last step. -/
structure Walked (reg : Registry σ) (t : Template) (a : Gist) : Prop where
  walk : Walk reg t a.marks
  paused : a.status = .paused →
    ∃ m ∈ a.marks.getLast?, m.status = .completed ∧ t.LeadsTo m a.currentStep
  completed : a.status = .completed →
    (a.marks = [] ∧ t.steps = []) ∨ ∃ m ∈ a.marks.getLast?, t.LeadsTo m none

@[simp] theorem extended_marks (a : Gist) (x : Execution.Gist) (next : Option String) :
    (a.extended x next).marks = a.marks ++ [x.mark] := by
  simp [extended, marks]

variable {reg : Registry σ} {t : Template} {step : Step} {viaFailure : Bool} {a : Gist}

theorem Walked.of_failed (h : Walk reg t a.marks) (hfailed : a.status = .failed) :
    a.Walked reg t :=
  ⟨h, by rw [hfailed]; exact nofun, by rw [hfailed]; exact nofun⟩

/-- The walk goes on with a step that has not been skipped. -/
theorem OnWalk.extend (h : a.OnWalk reg t (some step.id) viaFailure) {n : Execution.Mark}
    (hid : n.stepId = step.id) (hstatus : n.status ≠ .skipped) : Walk reg t (a.marks ++ [n]) :=
  h.walk.extend (hid ▸ h.ahead) (fun hskipped => absurd hskipped hstatus) fun _ _ _ => hstatus

/-- The case is on its way behind an execution of the step. -/
theorem onWalk_of_edge (ht : t.validate = .ok ()) (hstep : step ∈ t.steps) {x : Execution.Gist}
    (hid : x.stepId = step.id) {next : Option String} {via : Bool}
    (hwalk : Walk reg t (a.marks ++ [x.mark])) (hedge : t.Edge step x.status next)
    (hfallback : x.status = .failed → step.onFailure.isSome → via = true) :
    (a.extended x next).OnWalk reg t next via := by
  refine ⟨by rwa [extended_marks], .inr ⟨x.mark, by simp, step, hstep, hid.symm, hedge⟩, ?_⟩
  intro m hm hfails
  obtain rfl : x.mark = m := by simpa using hm
  obtain ⟨step', hstep', hid', hfailed, hsome⟩ := hfails
  obtain rfl := Template.eq_of_id ht hstep hstep' (hid.symm.trans hid'.symm)
  exact hfallback hfailed hsome

open Engine in
/-- A visit of a step extends the walk. -/
theorem OnWalk.visit (ht : t.validate = .ok ()) (hstep : step ∈ t.steps) {met : Encounter}
    (hmet : met = .noExecutor → reg.executor? step.type = none)
    (h : a.OnWalk reg t (some step.id) viaFailure) :
    Behind (OnWalk reg t) (Walked reg t) (a.visit (.ofTemplate t) step viaFailure met) := by
  have hnext := StepGraph.nextInOrder_ofTemplate ht hstep
  have hsuccess := StepGraph.edge_afterSuccess ht hstep
  have hcompleted : ExecutionStatus.completed ≠ .skipped := by decide
  have hfailed : ExecutionStatus.failed ≠ .skipped := by decide
  cases met with
  | noExecutor =>
    by_cases hvia : viaFailure
    · simp only [CaseRecord.Gist.visit, if_pos hvia]
      exact .of_failed h.walk rfl
    · by_cases hrequired : step.required
      · simp only [CaseRecord.Gist.visit, if_neg hvia, if_pos hrequired]
        exact .of_failed h.walk rfl
      · simp only [CaseRecord.Gist.visit, if_neg hvia, if_neg hrequired]
        have hwalk : Walk reg t (a.marks ++ [step.skipped.mark]) := by
          refine h.walk.extend h.ahead ?_ ?_
          · intro _
            exact ⟨step, hstep, rfl, by simpa using hrequired, hmet rfl⟩
          · intro m hm hfails
            exact absurd (h.fallback m hm hfails) hvia
        refine onWalk_of_edge ht hstep rfl hwalk (.nextAfterSkip hnext) ?_
        intro hstatus
        cases hstatus
  | outcome input o =>
    cases o with
    | pause output =>
      have hmarks := extended_marks a (step.completed input output)
        ((StepGraph.ofTemplate t).afterSuccess step)
      refine ⟨hmarks ▸ h.extend rfl hcompleted, ?_, ?_⟩
      · intro _
        exact ⟨(step.completed input output).mark, by simp [marks, extended], rfl, step, hstep, rfl,
          hsuccess⟩
      · intro hstatus
        cases hstatus
    | success output =>
      refine onWalk_of_edge ht hstep rfl (h.extend rfl hcompleted) hsuccess ?_
      intro hstatus
      cases hstatus
    | failure message =>
      have hwalk : Walk reg t (a.marks ++ [(step.failed input message).mark]) :=
        h.extend rfl hfailed
      cases hfailure : step.onFailure with
      | some target =>
        simp only [CaseRecord.Gist.visit, hfailure]
        exact onWalk_of_edge ht hstep rfl hwalk (.failure hfailure) fun _ _ => rfl
      | none =>
        by_cases hrequired : step.required
        · simp only [CaseRecord.Gist.visit, hfailure, if_pos hrequired]
          refine .of_failed ?_ rfl
          exact extended_marks a (step.failed input message) (some step.id) ▸ hwalk
        · simp only [CaseRecord.Gist.visit, hfailure, if_neg hrequired]
          refine onWalk_of_edge ht hstep rfl hwalk
            (.nextAfterFailure hfailure (by simpa using hrequired) hnext) ?_
          intro _ hsome
          rw [hfailure] at hsome
          cases hsome

end CaseRecord.Gist

/-! ### Cases that are driven -/

namespace Engine

open CaseRecord.Gist

variable {e : Engine σ} {t : Template}

theorem noExecutor_of_encounter {step : Step} {s : Session σ}
    (h : e.encounter step s = .noExecutor) : e.registry.executor? step.type = none := by
  rw [encounter, called] at h
  cases hexecutor : e.registry.executor? step.type with
  | none => rfl
  | some x =>
    rw [hexecutor] at h
    cases h

theorem walk_invariant (he : e.registry.Discreet) (ht : t.validate = .ok ()) :
    Invariant e t (fun _ => True) (OnWalk e.registry t) (Walked e.registry t) where
  discreet := he
  surroundings _ _ _ := trivial
  aside _ _ := trivial
  visit hstep _ _ hway := hway.visit ht hstep noExecutor_of_encounter
  complete hway := by
    refine ⟨hway.walk, nofun, ?_⟩
    intro _
    rcases hway.ahead with ⟨_, _, _, hnext⟩ | hlast
    · exact nomatch hnext
    · exact .inr hlast
  fail message hway := .of_failed hway.walk rfl
  opened hstatus hmarks := by
    refine ⟨hmarks ▸ .nil _ _, ?_, ?_⟩
    · intro hpaused
      rw [hstatus] at hpaused
      cases hpaused
    · intro hcompleted
      rw [hstatus] at hcompleted
      cases hcompleted
  start hordered hmarks hrest := by
    refine ⟨hrest.walk, .inl ⟨hmarks, _, Template.isFirst_of_ordered ht hordered, rfl⟩, ?_⟩
    intro m hm
    have hnone : m ∈ ([] : List Execution.Mark).getLast? := hmarks ▸ hm
    exact nomatch hnone
  startEmpty {a} hordered hmarks hrest := by
    have hempty : t.steps = [] := (hordered ▸ t.ordered_perm).nil_eq.symm
    exact ⟨hrest.walk, nofun, fun _ => .inl ⟨hmarks, hempty⟩⟩
  resume hpaused hrest := by
    obtain ⟨m, hm, hcompleted, hleads⟩ := hrest.paused hpaused
    refine ⟨hrest.walk, .inr ⟨m, hm, hleads⟩, ?_⟩
    rintro m' hm' ⟨_, _, _, hfailed, _⟩
    obtain rfl := Option.mem_unique hm hm'
    exact nomatch hcompleted.symm.trans hfailed
  amend hstatus hcurrent hmarks hrest := by
    refine ⟨hmarks ▸ hrest.walk, ?_, ?_⟩
    · rw [hstatus, hcurrent, hmarks]
      exact hrest.paused
    · rw [hstatus, hmarks]
      exact hrest.completed

end Engine

/-! ### A notice that is approved without being printed -/

namespace Notice

def approve : Step := ⟨"approve", "Approval", .clientApproval, 2, none, true, none, none⟩

def print : Step := ⟨"print", "Printing", .documentGeneration, 1, none, false, none, none⟩

def template : Template where
  id := "notice"
  version := 1
  name := "Notice"
  description := none
  steps := [approve, print]
  publishedAt := some ⟨0⟩

def engine : Engine Unit := ⟨.builtIn, .default⟩

def world : World Unit where
  store := { Store.empty with templates := Register.empty.insert template }
  clock n := ⟨n⟩
  readings := 0
  ids n := ⟨n⟩
  drawn := 0
  outage := none
  memory := ()

def opened : CaseRecord := .new ⟨0⟩ "case" template .empty ⟨0⟩

def worldOpened : World Unit :=
  { world with store := world.store.saveRecord opened, readings := 1, drawn := 1 }

/-- Printing is skipped, and the approval waits for its task. -/
def worldStarted : World Unit := (engine.startById opened.id worldOpened).2

def worldApproved : World Unit := (engine.completeTask ⟨3⟩ ⟨false, none, none⟩ worldStarted).2

theorem worldStarted_eq : worldStarted = (engine.runFrom ⟨[print, approve]⟩ 1000 false "print"
    (Engine.startedAt ⟨opened, worldOpened⟩ print)).2.world := by
  have hordered : template.ordered = [print, approve] :=
    Template.ordered_eq_of_pairwise rfl (.swap ..) (by decide)
  rw [worldStarted, Engine.startById_world rfl rfl,
    Engine.start_eq_runFrom rfl rfl ⟨rfl, rfl⟩ hordered]
  rfl

theorem recordId_of_task {task : CaseTask} (htask : worldStarted.store.task? ⟨3⟩ = some task) :
    task.recordId = opened.id := by
  have hrecord : (worldStarted.store.task? ⟨3⟩).map (·.recordId) = some opened.id := by
    rw [worldStarted_eq]
    rfl
  rw [htask] at hrecord
  exact Option.some.inj hrecord

theorem ids_injective : Function.Injective worldOpened.ids := by
  intro m n h
  cases h
  rfl

theorem worldApproved_of_drives : engine.Drives opened.id worldOpened worldApproved :=
  .complete (.start .done) (fun _ htask => recordId_of_task htask) _

end Notice

/-! ### The walk of a case that is driven -/

namespace Engine

open CaseRecord.Gist

variable {e : Engine σ} {t : Template}

/-- Whatever is done with a case, its executions are a walk through the template, and the case stands
where the walk has come to. -/
theorem walked_of_drives (he : e.registry.Discreet) {w w₁ w₂ : World σ} (hcalm : w.outage = none)
    {caseId templateId : String} {version : Option Nat} {data : Dictionary String}
    {r : CaseRecord} (hopen : openCase caseId templateId version data w = (.ok r, w₁))
    (htemplate : w₁.store.template? r.templateId r.templateVersion = some t)
    (ht : t.validate = .ok ()) (hdrives : e.Drives r.id w₁ w₂) :
    ∃ r', w₂.store.record? r.id = some r' ∧ r'.gist.Walked e.registry t := by
  obtain ⟨t', hfresh, -⟩ := openCase_fresh hcalm hopen
  obtain rfl : t' = t := Option.some.inj (hfresh.template.symm.trans htemplate)
  obtain ⟨r', hr', hkept⟩ := (walk_invariant he ht).holds_of_fresh ht hfresh trivial hdrives
  exact ⟨r', hr', hkept.gist⟩

open Notice in
theorem walked_of_drives_notice : ∃ r', worldApproved.store.record? opened.id = some r' ∧
    r'.gist.Walked engine.registry Notice.template :=
  walked_of_drives Registry.builtIn_discreet (w := world) rfl
    (rfl : openCase "case" "notice" none .empty world = (.ok opened, worldOpened)) rfl rfl
    worldApproved_of_drives

end Engine

end Casework
