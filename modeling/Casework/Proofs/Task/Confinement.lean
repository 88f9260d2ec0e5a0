import Casework.Proofs.Engine.Lifetime
import Casework.Proofs.Task.Beside

/-!
# What an operation on a case touches

The tasks of all cases are in one register, by ids of their own. An operation on a case puts only
tasks of the case into it, and only under ids of two kinds: the one of the task that is completed,
and ids that are drawn. As long as none of these is the id of another case's task, the records and
tasks of other cases stay as they were, with their order, and so do templates, rule sets and
formulas.
-/

namespace Casework

variable {σ : Type}

/-! ### The tasks of one case and of the others -/

namespace Store

variable {s s' : Store} {id id' : Id} {task : CaseTask}

/-- The tasks of the case, in the order in which they have come into the store. -/
def ownTasks (s : Store) (id : Id) : List CaseTask := s.tasks.entries.filter (·.recordId == id)

/-- The tasks of all other cases. -/
def otherTasks (s : Store) (id : Id) : List CaseTask := s.tasks.entries.filter (·.recordId != id)

theorem mem_ownTasks : task ∈ s.ownTasks id ↔ task ∈ s.tasks.entries ∧ task.recordId = id := by
  simp [ownTasks]

theorem mem_otherTasks : task ∈ s.otherTasks id ↔ task ∈ s.tasks.entries ∧ task.recordId ≠ id := by
  simp [otherTasks]

theorem ownTasks_of_otherTasks (h : s'.otherTasks id = s.otherTasks id) (hne : id' ≠ id) :
    s'.ownTasks id' = s.ownTasks id' := by
  have hown (s : Store) : s.ownTasks id' = (s.otherTasks id).filter (·.recordId == id') := by
    rw [ownTasks, otherTasks, List.filter_filter]
    refine List.filter_congr fun task _ => ?_
    by_cases hid : task.recordId = id'
    · simp [hid, hne]
    · simp [hid]
  rw [hown, hown, h]

theorem tasksOf_of_ownTasks (h : s'.ownTasks id = s.ownTasks id) :
    s'.tasksOf id = s.tasksOf id := by
  have hsorted (s : Store) :
    s.tasksOf id = (s.ownTasks id).mergeSort fun a b => a.createdAt ≤ b.createdAt := rfl
  rw [hsorted, hsorted, h]

theorem task?_eq_some_iff {taskId : Id} :
    s.task? taskId = some task ↔ task ∈ s.tasks.entries ∧ task.id = taskId :=
  Register.find?_eq_some_iff

/-- No task of another case has the id. -/
def Unclaimed (s : Store) (id x : Id) : Prop := ∀ task ∈ s.otherTasks id, task.id ≠ x

theorem Unclaimed.recordId {x : Id} (h : s.Unclaimed id x) (htask : s.task? x = some task) :
    task.recordId = id := by
  obtain ⟨hmem, hid⟩ := task?_eq_some_iff.1 htask
  by_contra hother
  exact h task (mem_otherTasks.2 ⟨hmem, hother⟩) hid

theorem ownTasks_saveTask (hid : task.recordId = id) (h : s.Unclaimed id task.id) :
    (s.saveTask task).ownTasks id = Register.put CaseTask.id task (s.ownTasks id) := by
  refine Register.filter_put_of_pos (by simp [hid]) fun task' hmem hother => ?_
  exact h task' (mem_otherTasks.2 ⟨hmem, by simpa using hother⟩)

theorem otherTasks_saveTask (hid : task.recordId = id) (h : s.Unclaimed id task.id) :
    (s.saveTask task).otherTasks id = s.otherTasks id := by
  refine Register.filter_put_of_neg (by simp [hid]) fun task' hmem hother => ?_
  exact h task' (mem_otherTasks.2 ⟨hmem, by simpa using hother⟩)

/-- A task that is put into the store adds its id at most. -/
theorem ids_saveTask (hid : task.recordId = id) (h : s.Unclaimed id task.id) {x : Id}
    (hx : x ∈ ((s.saveTask task).ownTasks id).map (·.id)) :
    x ∈ (s.ownTasks id).map (·.id) ∨ x = task.id := by
  rw [ownTasks_saveTask hid h, Register.map_put] at hx
  split at hx
  · exact .inl hx
  · simpa using hx

/-- What is not the case's is in the later store as it was in the earlier one. -/
structure SameBeyond (id : Id) (s s' : Store) : Prop where
  templates : s'.templates = s.templates
  ruleSets : s'.ruleSets = s.ruleSets
  formulas : s'.formulas = s.formulas
  records : ∀ {id'}, id' ≠ id → s'.record? id' = s.record? id'
  otherTasks : s'.otherTasks id = s.otherTasks id

namespace SameBeyond

theorem refl (id : Id) (s : Store) : SameBeyond id s s := ⟨rfl, rfl, rfl, fun _ => rfl, rfl⟩

theorem ownTasks (h : SameBeyond id s s') (hne : id' ≠ id) : s'.ownTasks id' = s.ownTasks id' :=
  ownTasks_of_otherTasks h.otherTasks hne

theorem saveRecord (h : SameBeyond id s s') {r : CaseRecord} (hr : r.id = id) :
    SameBeyond id s (s'.saveRecord r) where
  templates := h.templates
  ruleSets := h.ruleSets
  formulas := h.formulas
  records {id'} hne := by
    rw [record?_saveRecord, if_neg (hr.trans_ne hne.symm)]
    exact h.records hne
  otherTasks := h.otherTasks

theorem saveTask (h : SameBeyond id s s') (hid : task.recordId = id)
    (hfree : s'.Unclaimed id task.id) : SameBeyond id s (s'.saveTask task) where
  templates := h.templates
  ruleSets := h.ruleSets
  formulas := h.formulas
  records hne := h.records hne
  otherTasks := (otherTasks_saveTask hid hfree).trans h.otherTasks

theorem unclaimed (h : SameBeyond id s s') {x : Id} (hx : s.Unclaimed id x) :
    s'.Unclaimed id x := by
  rw [Unclaimed, h.otherTasks]
  exact hx

end SameBeyond

end Store

/-! ### Ids that an operation takes -/

/-- Where ids and times come from. -/
structure Supply where
  clock : Nat → Time
  readings : Nat
  ids : Nat → Id
  drawn : Nat

/-- The id is still to be drawn. -/
def Supply.Yields (supply : Supply) (x : Id) : Prop := ∃ n, supply.drawn ≤ n ∧ supply.ids n = x

namespace World

def supply (w : World σ) : Supply := ⟨w.clock, w.readings, w.ids, w.drawn⟩

/-- The world in which ids and times come from somewhere else. -/
def supplied (w : World σ) (supply : Supply) : World σ :=
  { w with
    clock := supply.clock, readings := supply.readings, ids := supply.ids, drawn := supply.drawn }

/-- In the later world there has been work on the case. Its tasks have ids that they had, or ids
that have been drawn. -/
structure Within (id : Id) (w w' : World σ) : Prop extends w.store.SameBeyond id w'.store where
  ids : w'.ids = w.ids
  drawn : w.drawn ≤ w'.drawn
  calm : w.outage = none → w'.outage = none
  taskIds : ∀ {x}, x ∈ (w'.store.ownTasks id).map (·.id) →
    x ∈ (w.store.ownTasks id).map (·.id) ∨ w.supply.Yields x

namespace Within

variable {id : Id} {w w' w'' : World σ}

theorem refl (id : Id) (w : World σ) : w.Within id w :=
  ⟨.refl _ _, rfl, Nat.le_refl _, fun h => h, .inl⟩

/-- Work that leaves the store alone. -/
theorem of_store (h : w.Within id w') (hstore : w''.store = w'.store) (hids : w''.ids = w'.ids)
    (hdrawn : w'.drawn ≤ w''.drawn) (hcalm : w'.outage = none → w''.outage = none) :
    w.Within id w'' where
  toSameBeyond := hstore ▸ h.toSameBeyond
  ids := hids.trans h.ids
  drawn := Nat.le_trans h.drawn hdrawn
  calm hw := hcalm (h.calm hw)
  taskIds hx := h.taskIds (hstore ▸ hx)

theorem saveRecord (h : w.Within id w') {r : CaseRecord} (hr : r.id = id) :
    w.Within id { w' with store := w'.store.saveRecord r } :=
  { h with toSameBeyond := h.toSameBeyond.saveRecord hr }

/-- A task is put in under an id that it has had or that has been drawn. -/
theorem saveTask (h : w.Within id w') {task : CaseTask} (hid : task.recordId = id)
    (hfree : w.store.Unclaimed id task.id)
    (hknown : task.id ∈ (w.store.ownTasks id).map (·.id) ∨ w.supply.Yields task.id) :
    w.Within id { w' with store := w'.store.saveTask task } where
  toSameBeyond := h.toSameBeyond.saveTask hid (h.unclaimed hfree)
  ids := h.ids
  drawn := h.drawn
  calm := h.calm
  taskIds hx := by
    rcases Store.ids_saveTask hid (h.unclaimed hfree) hx with hx | rfl
    · exact h.taskIds hx
    · exact hknown

end Within

end World

/-- The session of a case, with nothing but work on it since an earlier world. -/
structure Session.Within (id : Id) (w : World σ) (s : Session σ) : Prop
    extends w.Within id s.world where
  id : s.record.id = id

namespace Engine

open Work

variable {e : Engine σ} {id id' : Id} {w w' : World σ}

theorem upkeep_within (he : e.registry = .builtIn)
    (hnew : ∀ x, w.supply.Yields x → w.store.Unclaimed id x) :
    Upkeep e (fun _ => True) (Session.Within id w) where
  ticked h := ⟨h.of_store rfl rfl (Nat.le_refl _) fun hw => hw, h.id⟩
  asked h hcalm := ⟨h.of_store rfl rfl (Nat.le_refl _) hcalm, h.id⟩
  found _ _ := trivial
  turned h horigin _ _ := ⟨h.toWithin, (CaseRecord.id_eq_of_origin horigin).trans h.id⟩
  directed h _ _ := ⟨h.toWithin, h.id⟩
  saved h := ⟨h.toWithin.saveRecord h.id, h.id⟩
  adopted h hr := ⟨h.toWithin, (Register.key_of_find? hr).trans h.id⟩
  extended h _ _ := ⟨h.of_store rfl rfl (Nat.le_succ _) fun hw => hw, h.id⟩
  matured h _ := ⟨h.toWithin, h.id⟩
  called {s step x outage} _ := by
    intro begun h hx
    rw [he] at hx
    rcases Registry.builtIn_leavesAtMost hx step (s.execution step) begun.record begun.world with
      ⟨-, hsame⟩ | ⟨kind, -, task, hleaves, hreply⟩
    · rw [hsame]
      exact h
    · rw [hreply]
      have hdrawn : w.supply.Yields task.id :=
        ⟨begun.world.drawn, h.drawn, by rw [hleaves.id, h.ids]; rfl⟩
      have hleft := h.toWithin.saveTask (hleaves.recordId.trans h.id) (hnew _ hdrawn) (.inr hdrawn)
      exact ⟨hleft.of_store rfl rfl (Nat.le_succ _) fun hw => hw, h.id⟩
  settled _ h _ _ _ := ⟨h.toWithin, h.id⟩

namespace Operation

/-- The ids under which the operation may put tasks into the store: the one of the task that is
completed, and those that are still to be drawn. -/
def Takes (supply : Supply) (x : Id) : Operation → Prop
  | .complete taskId _ => taskId = x ∨ supply.Yields x
  | .start | .resume | .cancel _ => supply.Yields x

/-- No task of another case has an id that the operation takes. So a task that is completed is one
of the case. -/
def Clear (id : Id) (w : World σ) (op : Operation) : Prop :=
  ∀ x, op.Takes w.supply x → w.store.Unclaimed id x

theorem takes_of_yields {supply : Supply} {x : Id} (h : supply.Yields x) (op : Operation) :
    op.Takes supply x := by
  cases op with
  | complete => exact .inr h
  | start | resume | cancel => exact h

theorem withRecord_within (he : e.registry = .builtIn)
    (hnew : ∀ x, w.supply.Yields x → w.store.Unclaimed id x) {r : CaseRecord} (hr : r.id = id)
    (hw : w.Within id w') (command : Command) :
    w.Within id (Attempt.withRecord r (command.act e) w').2 := by
  have hbehind := (upkeep_within he hnew).upholds_command (.any _ _) command ⟨r, w'⟩ ⟨hw, hr⟩
  rw [withRecord_world]
  exact hbehind.property.toWithin

theorem byId_within (he : e.registry = .builtIn)
    (hnew : ∀ x, w.supply.Yields x → w.store.Unclaimed id x) (command : Command) :
    w.Within id ((do Attempt.withRecord (← Attempt.record id) (command.act e)) w).2 := by
  obtain ⟨outage, hcalm, ⟨err, -, hfailed⟩ | ⟨r, hr, hresult⟩⟩ := byId_cases id (command.act e) w
  · rw [hfailed]
    exact (World.Within.refl id w).of_store rfl rfl (Nat.le_refl _) hcalm
  · rw [hresult]
    have hasked : w.Within id { w with outage } :=
      (World.Within.refl id w).of_store rfl rfl (Nat.le_refl _) hcalm
    exact withRecord_within he hnew (Register.key_of_find? hr) hasked command

theorem complete_within (he : e.registry = .builtIn) {taskId : Id} {resolution : Resolution}
    (hop : (complete taskId resolution).Clear id w) :
    w.Within id (e.completeTask taskId resolution w).2 := by
  have hnew : ∀ x, w.supply.Yields x → w.store.Unclaimed id x := fun x hx => hop x (.inr hx)
  have hfree : w.store.Unclaimed id taskId := hop taskId (.inl rfl)
  obtain ⟨outage, hcalm, ⟨err, -, hfailed⟩ | ⟨task, r, htask, hr, -, -, hresult⟩⟩ :=
    completeTask_saves_cases (e := e) taskId resolution w
  · rw [hfailed]
    exact (World.Within.refl id w).of_store rfl rfl (Nat.le_refl _) hcalm
  obtain ⟨hmem, rfl⟩ := Store.task?_eq_some_iff.1 htask
  have hid : task.recordId = id := hfree.recordId htask
  rw [hid] at hr
  let resolved := task.resolve resolution (w.clock w.readings)
  let r' : CaseRecord := { r with executions := completeTask.amend resolved r.executions }
  have hr' : r'.id = id := (Register.key_of_find? hr : r.id = id)
  -- The task goes back under the id that it has had.
  have hknown : task.id ∈ (w.store.ownTasks id).map (·.id) :=
    List.mem_map_of_mem (Store.mem_ownTasks.2 ⟨hmem, hid⟩)
  have hsaved : w.Within id { w with store := w.store.saveTask resolved } :=
    (World.Within.refl id w).saveTask hid hfree (.inl hknown)
  have hkept : w.Within id
      { w with outage, readings := w.readings + 1, store := w.store.saveTask resolved } :=
    hsaved.of_store rfl rfl (Nat.le_refl _) hcalm
  rcases hresult with hlost | hgoesOn
  · rw [hlost]
    exact hkept
  · rw [hgoesOn]
    exact withRecord_within he hnew hr' (hkept.saveRecord hr') (.launch .resume)

/-- Whatever comes of an operation, there has only been work on its case. -/
theorem within (he : e.registry = .builtIn) {op : Operation} (hop : op.Clear id w) :
    w.Within id (op.run e id w).2 := by
  cases op with
  | start => exact byId_within he hop (.launch .start)
  | resume => exact byId_within he hop (.launch .resume)
  | cancel reason => exact byId_within he hop (.cancel reason)
  | complete taskId resolution => exact complete_within he hop

end Operation

end Engine

end Casework
