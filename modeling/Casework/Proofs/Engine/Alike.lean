import Casework.Proofs.Engine.Launch
import Mathlib.Data.List.Sort

/-!
# Cases that go alike

Take executors whose replies depend only on the step, the input, the data of the case and what they
remember. Two cases go alike if they have the same gist, the same data, and the executors remember
the same. Then both meet the same at a step and go alike behind it, and so they come to the same
end.

What they read is the same as long as executions are completed in the order in which they begin;
`completedBefore` would otherwise sort them differently.
-/

namespace Casework

variable {σ μ : Type}

/-! ### Executors that can be asked again -/

/-- What the executor replies depends on the step, the input, the data of the case and what it
remembers, such as how often it was called for each step, and so does what it remembers then. -/
structure Executor.Repeatable (remember : σ → μ) (x : Executor σ) : Prop extends x.Discreet where
  reply : ∀ step {e e' : Execution} {r r' : CaseRecord} {w w' : World σ}, e.input = e'.input →
    r.data = r'.data → remember w.memory = remember w'.memory →
    (x step e r w).1 = (x step e' r' w').1
  remembers : ∀ step {e e' : Execution} {r r' : CaseRecord} {w w' : World σ}, e.input = e'.input →
    r.data = r'.data → remember w.memory = remember w'.memory →
    remember (x step e r w).2.memory = remember (x step e' r' w').2.memory

def Registry.Repeatable (remember : σ → μ) (reg : Registry σ) : Prop :=
  ∀ {type x}, reg.executor? type = some x → Executor.Repeatable remember x

theorem Registry.Repeatable.discreet {remember : σ → μ} {reg : Registry σ}
    (h : reg.Repeatable remember) : reg.Discreet :=
  fun hx => (h hx).toDiscreet

/-! ### Contexts of executions in order -/

/-- The executions have been completed in their order. -/
def Chronological (es : List Execution) : Prop :=
  es.Pairwise fun e f => Context.completedBefore e f

theorem chronological_of_times {es : List Execution} {times : List Time}
    (htimes : es.map (·.completedAt) = times.map some) (h : times.Pairwise (· ≤ ·)) :
    Chronological es := by
  have htime : ∀ x ∈ es, ∃ t, x.completedAt = some t := by
    intro x hx
    have hmem := List.mem_map_of_mem (f := (·.completedAt)) hx
    rw [htimes] at hmem
    obtain ⟨t, -, ht⟩ := List.mem_map.1 hmem
    exact ⟨t, ht.symm⟩
  have hle : (es.map (·.completedAt)).Pairwise fun s t => ∀ a ∈ s, ∀ b ∈ t, a ≤ b := by
    rw [htimes, List.pairwise_map]
    simpa using h
  rw [List.pairwise_map] at hle
  refine hle.imp_of_mem fun {x y} hx hy hxy => ?_
  obtain ⟨s, hs⟩ := htime x hx
  obtain ⟨t, ht⟩ := htime y hy
  rw [Context.completedBefore, hs, ht]
  exact decide_eq_true (hxy s hs t ht)

/-- What a context takes from executions that have been completed in their order. -/
def CaseRecord.Gist.outputs (a : CaseRecord.Gist) : List (String × String) :=
  (a.executions.filter (·.status == .completed)).filterMap fun e => e.output.map (e.stepName, ·)

theorem Context.outputs_of_chronological {r : CaseRecord} (h : Chronological r.executions) :
    Context.outputs r.executions = r.gist.outputs := by
  have hsorted : (r.executions.filter (·.status == .completed)).Pairwise
      fun e f => completedBefore e f := h.sublist List.filter_sublist
  rw [outputs, List.mergeSort_of_pairwise hsorted, CaseRecord.Gist.outputs, CaseRecord.gist,
    List.filter_map, List.filterMap_map]
  rfl

theorem Session.input_of_chronological {s : Session σ} (h : Chronological s.record.executions) :
    s.input = (Context.ofList s.record.gist.outputs).render := by
  rw [input, Context.ofExecutions, Context.outputs_of_chronological h]

/-! ### Visits of cases that go alike -/

/-- Two cases that stand at the same place of a run, with executors that remember the same. -/
structure Alike (remember : σ → μ) (s s' : Session σ) : Prop where
  underway : s.Underway
  underway' : s'.Underway
  gist : s.record.gist = s'.record.gist
  data : s.record.data = s'.record.data
  memory : remember s.world.memory = remember s'.world.memory

namespace Alike

variable {remember : σ → μ} {e e' : Engine σ} {step : Step} {s s' : Session σ}

theorem input (h : Alike remember s s') (hs : Chronological s.record.executions)
    (hs' : Chronological s'.record.executions) : s.input = s'.input := by
  rw [Session.input_of_chronological hs, Session.input_of_chronological hs', h.gist]

/-- What they read is told by the ends of the runs. -/
theorem input_of_runs (h : Alike remember s s') (he : e.registry.Discreet)
    (he' : e'.registry.Discreet) {g g' : StepGraph} {left left' : Nat} {via via' : Bool}
    {id id' : String} (hs : Chronological (e.runFrom g left via id s).2.record.executions)
    (hs' : Chronological (e'.runFrom g' left' via' id' s').2.record.executions) :
    s.input = s'.input := by
  refine h.input (hs.sublist ?_) (hs'.sublist ?_)
  · exact (Engine.runFrom_continues he _ _ _ h.underway).executions.sublist
  · exact (Engine.runFrom_continues he' _ _ _ h.underway').executions.sublist

/-- They get the same answer. -/
theorem encounter (he : e.registry.Repeatable remember) (h : Alike remember s s')
    (hinput : s.input = s'.input) : e.encounter step s = e.encounter step s' := by
  simp only [Engine.encounter, Engine.called]
  cases hexecutor : e.registry.executor? step.type with
  | none => rfl
  | some x =>
    exact congrArg₂ (fun input reply => Encounter.outcome input (Reply.outcome reply)) hinput
      ((he hexecutor).reply step (congrArg some hinput) h.data h.memory)

theorem memoryBehind (he : e.registry.Repeatable remember) (h : Alike remember s s')
    (hinput : s.input = s'.input) :
    remember (e.worldBehind step s).memory = remember (e.worldBehind step s').memory := by
  cases hx : e.registry.executor? step.type with
  | none =>
    rw [Engine.worldBehind_of_none hx, Engine.worldBehind_of_none hx]
    exact h.memory
  | some x =>
    rw [Engine.worldBehind_of_some hx, Engine.worldBehind_of_some hx]
    exact (he hx).remembers step (congrArg some hinput) h.data h.memory

theorem of_continues {f f' : Session σ} (h : Alike remember s s') (hf : s.Continues f)
    (hf' : s'.Continues f') (hunderway : f.Underway) (hunderway' : f'.Underway)
    (hgist : f.record.gist = f'.record.gist)
    (hmemory : remember f.world.memory = remember f'.world.memory) : Alike remember f f' where
  underway := hunderway
  underway' := hunderway'
  gist := hgist
  data := by
    rw [CaseRecord.data_eq_of_origin hf.origin, CaseRecord.data_eq_of_origin hf'.origin, h.data]
  memory := hmemory

end Alike

/-! ### Runs of cases that go alike -/

/-- It makes no difference to an executor how the case has come to its step. -/
theorem CaseRecord.Gist.visit_outcome (g : StepGraph) (step : Step) (via via' : Bool) (a : Gist)
    (input : String) (o : Outcome) :
    a.visit g step via (.outcome input o) = a.visit g step via' (.outcome input o) := by
  cases o <;> rfl

namespace Engine

variable {remember : σ → μ} {e : Engine σ} {g : StepGraph} {step : Step} {s s' : Session σ}

theorem visit_gist_eq_of_contains (hexecutor : e.registry.contains step.type) (via via' : Bool) :
    s.record.gist.visit g step via (e.encounter step s) =
      s.record.gist.visit g step via' (e.encounter step s) := by
  obtain ⟨x, hx⟩ := Registry.exists_of_contains hexecutor
  rw [encounter, called, hx]
  exact CaseRecord.Gist.visit_outcome ..

/-- Cases that go alike do so behind a visit. One may have come to the step by way of a failure and
the other not, if there is an executor for it. -/
theorem visit_alike (he : e.registry.Repeatable remember) (h : Alike remember s s')
    (hinput : s.input = s'.input) {via via' : Bool}
    (hvia : via = via' ∨ e.registry.contains step.type) :
    (e.visit g step via s).1 = (e.visit g step via' s').1 ∧
      (e.visit g step via s).2.record.gist = (e.visit g step via' s').2.record.gist ∧
      ∀ next via'', (e.visit g step via s).1 = .ok (.goOn next via'') →
        Alike remember (e.visit g step via s).2 (e.visit g step via' s').2 := by
  have hd : e.registry.Discreet := he.discreet
  have hleads := @visit_leads σ e hd g step s h.underway.calm h.underway.running via
  have hleads' := @visit_leads σ e hd g step s' h.underway'.calm h.underway'.running via'
  have htold : s.record.gist.visit g step via (e.encounter step s) =
      s'.record.gist.visit g step via' (e.encounter step s') := by
    rw [← h.gist, ← h.encounter he hinput]
    rcases hvia with rfl | hcontains
    · rfl
    · exact visit_gist_eq_of_contains hcontains via via'
  rw [htold] at hleads
  have hresult := hleads.result.trans hleads'.result.symm
  have hgist := hleads.gist.trans hleads'.gist.symm
  refine ⟨hresult, hgist, ?_⟩
  intro next via'' hgoOn
  refine h.of_continues hleads.continues hleads'.continues
    (visit_underway hd.calm h.underway (Prod.ext hgoOn rfl))
    (visit_underway hd.calm h.underway' (Prod.ext (hresult.symm.trans hgoOn) rfl)) hgist ?_
  rw [hleads.memory, hleads'.memory]
  exact h.memoryBehind he hinput

theorem runFrom_gist_eq_of_dangling {left left' : Nat} {via via' : Bool} {id : String}
    (h : Alike remember s s') (hid : g.step? id = none) :
    (e.runFrom g left via id s).2.record.gist = (e.runFrom g left' via' id s').2.record.gist := by
  rw [runFrom_of_dangling h.underway hid, runFrom_of_dangling h.underway' hid,
    Session.failed_gist, Session.failed_gist, h.gist]

/-- Whoever does not take too many visits has one left. -/
theorem exists_left_of_ends (h : s.Underway) {left : Nat} {via : Bool} {id : String}
    (hid : g.step? id = some step)
    (hends : ∀ limit, (e.runFrom g left via id s).1 ≠ .error (.tooManyVisits limit)) :
    ∃ n, left = n + 1 := by
  cases left with
  | zero =>
    refine absurd ?_ (hends e.config.maxVisits)
    rw [runFrom_zero h hid]
  | succ n => exact ⟨n, rfl⟩

/-- Cases that go alike come to the same end, unless they take too many visits. -/
theorem runFrom_gist_eq (he : e.registry.Repeatable remember) {left left' : Nat} {via via' : Bool}
    {id : String} (h : Alike remember s s')
    (hvia : via = via' ∨ ∀ step, g.step? id = some step → e.registry.contains step.type)
    (hends : ∀ limit, (e.runFrom g left via id s).1 ≠ .error (.tooManyVisits limit))
    (hends' : ∀ limit, (e.runFrom g left' via' id s').1 ≠ .error (.tooManyVisits limit))
    (hinorder : Chronological (e.runFrom g left via id s).2.record.executions)
    (hinorder' : Chronological (e.runFrom g left' via' id s').2.record.executions) :
    (e.runFrom g left via id s).2.record.gist = (e.runFrom g left' via' id s').2.record.gist := by
  induction left generalizing left' via via' id s s' with
  | zero =>
    cases hid : g.step? id with
    | none => exact runFrom_gist_eq_of_dangling h hid
    | some step =>
      obtain ⟨n, hn⟩ := exists_left_of_ends h.underway hid hends
      cases hn
  | succ left ih =>
    cases hid : g.step? id with
    | none => exact runFrom_gist_eq_of_dangling h hid
    | some step =>
      obtain ⟨left', rfl⟩ := exists_left_of_ends h.underway' hid hends'
      have hd : e.registry.Discreet := he.discreet
      obtain ⟨hresult, hgist, halike⟩ := visit_alike (g := g) he h
        (h.input_of_runs hd hd hinorder hinorder') (hvia.imp_right (· step hid))
      rw [runFrom_succ h.underway hid] at hends hinorder ⊢
      rw [runFrom_succ h.underway' hid] at hends' hinorder' ⊢
      generalize e.visit g step via s = final at *
      generalize e.visit g step via' s' = final' at *
      obtain ⟨result, f⟩ := final
      obtain ⟨_, f'⟩ := final'
      obtain rfl := hresult
      match result with
      | .error err => exact hgist
      | .ok .stop => exact hgist
      | .ok (.goOn none _) =>
        have hboth := halike _ _ rfl
        rw [runBehind, runBehind, complete_apply hboth.underway.calm hboth.underway.live,
          complete_apply hboth.underway'.calm hboth.underway'.live, Session.completed_gist,
          Session.completed_gist, hboth.gist]
      | .ok (.goOn (some next) _) =>
        exact ih (halike _ _ rfl) (.inl rfl) hends hends' hinorder hinorder'

end Engine

end Casework
