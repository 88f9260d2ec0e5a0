import Casework.Proofs.Engine.Coupling
import Casework.Proofs.Task.Calls
import Casework.Proofs.Task.Confinement

/-!
# Cases are isolated from each other

What an operation makes of a case does not depend on other cases: in two stores that differ in the
records and tasks of other cases only, it comes to the same result and to the same record and tasks
of its own. Ids and times are taken to come from one source, since an output names a task by its id
and a rule may look at that. As an operation does not touch other cases either, operations on
different cases can be done in either order.
-/

namespace Casework

variable {σ : Type}

/-! ### Stores that are the same for a case -/

/-- The stores differ in the records and tasks of other cases at most. -/
structure Store.Agrees (id : Id) (s s' : Store) : Prop where
  templates : s.templates = s'.templates
  ruleSets : s.ruleSets = s'.ruleSets
  formulas : s.formulas = s'.formulas
  record : s.record? id = s'.record? id
  ownTasks : s.ownTasks id = s'.ownTasks id

namespace Store.Agrees

variable {id : Id} {s s' : Store}

theorem symm (h : s.Agrees id s') : s'.Agrees id s :=
  ⟨h.templates.symm, h.ruleSets.symm, h.formulas.symm, h.record.symm, h.ownTasks.symm⟩

theorem trans {s'' : Store} (h : s.Agrees id s') (h' : s'.Agrees id s'') : s.Agrees id s'' :=
  ⟨h.templates.trans h'.templates, h.ruleSets.trans h'.ruleSets, h.formulas.trans h'.formulas,
    h.record.trans h'.record, h.ownTasks.trans h'.ownTasks⟩

theorem saveRecord (h : s.Agrees id s') (r : CaseRecord) :
    (s.saveRecord r).Agrees id (s'.saveRecord r) where
  templates := h.templates
  ruleSets := h.ruleSets
  formulas := h.formulas
  record := by rw [record?_saveRecord, record?_saveRecord, h.record]
  ownTasks := h.ownTasks

theorem saveTask (h : s.Agrees id s') {task : CaseTask} (hid : task.recordId = id)
    (hfree : s.Unclaimed id task.id) (hfree' : s'.Unclaimed id task.id) :
    (s.saveTask task).Agrees id (s'.saveTask task) where
  templates := h.templates
  ruleSets := h.ruleSets
  formulas := h.formulas
  record := h.record
  ownTasks := by rw [ownTasks_saveTask hid hfree, ownTasks_saveTask hid hfree', h.ownTasks]

/-- An id that no other case's task has leads to the same task. -/
theorem task? (h : s.Agrees id s') {x : Id} (hfree : s.Unclaimed id x)
    (hfree' : s'.Unclaimed id x) : s.task? x = s'.task? x := by
  have hown {s : Store} (hfree : s.Unclaimed id x) (task : CaseTask) :
      s.task? x = some task ↔ task ∈ s.ownTasks id ∧ task.id = x := by
    rw [mem_ownTasks]
    refine ⟨fun htask => ?_, fun htask => task?_eq_some_iff.2 ⟨htask.1.1, htask.2⟩⟩
    obtain ⟨hmem, hid⟩ := task?_eq_some_iff.1 htask
    exact ⟨⟨hmem, hfree.recordId htask⟩, hid⟩
  refine Option.ext fun task => ?_
  rw [hown hfree, hown hfree', h.ownTasks]

end Store.Agrees

theorem Store.SameBeyond.agrees {id id' : Id} {s s' : Store} (h : s.SameBeyond id' s')
    (hne : id ≠ id') : s.Agrees id s' where
  templates := h.templates.symm
  ruleSets := h.ruleSets.symm
  formulas := h.formulas.symm
  record := (h.records hne).symm
  ownTasks := (h.ownTasks hne).symm

namespace World

/-- The stores are the same for the case, and ids and times come from one source. -/
structure Agrees (id : Id) (w w' : World σ) : Prop where
  store : w.store.Agrees id w'.store
  supply : w.supply = w'.supply
  outage : w.outage = w'.outage

theorem Agrees.now {id : Id} {w w' : World σ} (h : w.Agrees id w') :
    w.clock w.readings = w'.clock w'.readings :=
  congrArg (fun supply => supply.clock supply.readings) h.supply

theorem Agrees.newId {id : Id} {w w' : World σ} (h : w.Agrees id w') :
    w.ids w.drawn = w'.ids w'.drawn :=
  congrArg (fun supply => supply.ids supply.drawn) h.supply

/-- Two worlds in each of which the case is worked on in the same way. Tasks of other cases have
none of the ids that are free for it. -/
structure Counterparts (id : Id) (free : Id → Prop) (w w' : World σ) : Prop
    extends w.Agrees id w' where
  free_of_yields : ∀ x, w.supply.Yields x → free x
  unclaimed : ∀ x, free x → w.store.Unclaimed id x
  unclaimed' : ∀ x, free x → w'.store.Unclaimed id x

namespace Counterparts

variable {id : Id} {free : Id → Prop} {w w' : World σ}

theorem ticked (h : w.Counterparts id free w') : Counterparts id free
    { w with readings := w.readings + 1 } { w' with readings := w'.readings + 1 } :=
  { h with
    supply := congrArg (fun s => { s with readings := s.readings + 1 }) h.supply }

theorem drawn (h : w.Counterparts id free w') : Counterparts id free
    { w with drawn := w.drawn + 1 } { w' with drawn := w'.drawn + 1 } :=
  { h with
    supply := congrArg (fun s => { s with drawn := s.drawn + 1 }) h.supply
    free_of_yields := fun x ⟨n, hn, hx⟩ => h.free_of_yields x ⟨n, Nat.le_of_succ_le hn, hx⟩ }

theorem asked (h : w.Counterparts id free w') (outage : Option Outage) :
    Counterparts id free { w with outage } { w' with outage } :=
  { h with outage := rfl }

theorem saveRecord (h : w.Counterparts id free w') (r : CaseRecord) : Counterparts id free
    { w with store := w.store.saveRecord r } { w' with store := w'.store.saveRecord r } :=
  { h with store := h.store.saveRecord r }

theorem saveTask (h : w.Counterparts id free w') {task : CaseTask} (hid : task.recordId = id)
    (hfree : free task.id) : Counterparts id free
      { w with store := w.store.saveTask task } { w' with store := w'.store.saveTask task } :=
  have hsame := (Store.SameBeyond.refl id w.store).saveTask hid (h.unclaimed _ hfree)
  have hsame' := (Store.SameBeyond.refl id w'.store).saveTask hid (h.unclaimed' _ hfree)
  { h with
    store := h.store.saveTask hid (h.unclaimed _ hfree) (h.unclaimed' _ hfree)
    unclaimed := fun x hx => hsame.unclaimed (h.unclaimed x hx)
    unclaimed' := fun x hx => hsame'.unclaimed (h.unclaimed' x hx) }

end Counterparts

end World

/-- Two sessions of the case, with the same record at hand. -/
structure Session.Counterparts (id : Id) (free : Id → Prop) (s s' : Session σ) : Prop
    extends s.world.Counterparts id free s'.world where
  id : s.record.id = id
  record : s.record = s'.record

/-! ### Built-in executors -/

namespace Executor

variable (id : Id) (free : Id → Prop)

theorem decisionReply_of_ruleSets {s s' : Store} (h : s.ruleSets = s'.ruleSets) (step : Step)
    (execution : Execution) (record : CaseRecord) :
    decisionReply s step execution record = decisionReply s' step execution record := by
  simp only [decisionReply, Store.ruleSet?, h]

theorem calculationReply_of_formulas {s s' : Store} (h : s.formulas = s'.formulas) (step : Step)
    (execution : Execution) (record : CaseRecord) :
    calculationReply s step execution record = calculationReply s' step execution record := by
  simp only [calculationReply, Store.formula?, h]

theorem decisionTable_couples :
    Executor.Couples (Session.Counterparts id free) (decisionTable : Executor σ) decisionTable := by
  rintro ⟨r, w⟩ ⟨_, w'⟩ h step execution
  obtain rfl := h.record
  simp only [decisionTable_apply]
  exact ⟨decisionReply_of_ruleSets h.store.ruleSets step execution r, h⟩

theorem calculation_couples :
    Executor.Couples (Session.Counterparts id free) (calculation : Executor σ) calculation := by
  rintro ⟨r, w⟩ ⟨_, w'⟩ h step execution
  obtain rfl := h.record
  simp only [calculation_apply]
  exact ⟨calculationReply_of_formulas h.store.formulas step execution r, h⟩

theorem pendingTask_couples (kind : TaskKind) :
    Executor.Couples (Session.Counterparts id free) (pendingTask kind : Executor σ)
      (pendingTask kind) := by
  rintro ⟨r, w⟩ ⟨_, w'⟩ h step execution
  obtain rfl := h.record
  simp only [pendingTask_apply]
  cases taskConfig step with
  | error err => exact ⟨rfl, h⟩
  | ok config =>
    have hid : w.ids w.drawn = w'.ids w'.drawn := h.newId
    have hnow : w.clock w.readings = w'.clock w'.readings := h.now
    have htask :
        newTask step execution r w kind config = newTask step execution r w' kind config := by
      simp only [newTask, hid, hnow]
    have hfree : free (w.ids w.drawn) := h.free_of_yields _ ⟨w.drawn, Nat.le_refl _, rfl⟩
    let task := newTask step execution r w kind config
    have hsaved : World.Counterparts id free { w with store := w.store.saveTask task }
        { w' with store := w'.store.saveTask task } := h.saveTask h.id hfree
    simp only [← htask]
    exact ⟨trivial, hsaved.ticked.drawn, h.id, rfl⟩

end Executor

namespace Engine

open Work

variable {e : Engine σ} {id id' : Id} {free : Id → Prop} {w w' : World σ}

theorem coupling_counterparts (he : e.registry = .builtIn) (id : Id) (free : Id → Prop) :
    Coupling e e id (Session.Counterparts id free) where
  config := rfl
  recordId h := h.id
  record h := h.record
  now h := h.toAgrees.now
  newId h := h.newId
  outage h := h.outage
  stored h := h.store.record
  templates h templateId version := congrArg (·.find? (templateId, version)) h.store.templates
  ticked h := ⟨h.toCounterparts.ticked, h.id, h.record⟩
  drawn h := ⟨h.toCounterparts.drawn, h.id, h.record⟩
  asked h outage := ⟨h.toCounterparts.asked outage, h.id, h.record⟩
  turned h hid := ⟨h.toCounterparts, hid, rfl⟩
  saved {s s'} h := by
    rw [← h.record]
    exact ⟨h.toCounterparts.saveRecord s.record, h.id, rfl⟩
  executors type := by
    rw [he]
    cases hx : (Registry.builtIn : Registry σ).executor? type with
    | none => exact .none
    | some x =>
      refine .some (Registry.builtIn_forall
        (P := fun x => Executor.Couples (Session.Counterparts id free) x x) ?_ ?_ ?_ hx)
      · exact Executor.decisionTable_couples id free
      · exact Executor.calculation_couples id free
      · exact Executor.pendingTask_couples id free

/-! ### Operations -/

theorem couples_saveRecord (r : CaseRecord) : Couples (World.Counterparts id free)
    (Attempt.saveRecord r : Attempt σ Unit) (Attempt.saveRecord r) :=
  .bind (fun _ _ h => Attempt.ask_alike h h.outage h.asked .saveRecord rfl) fun _ _ _ h =>
    ⟨rfl, h.saveRecord r⟩

theorem couples_withRecord (he : e.registry = .builtIn) {r : CaseRecord} (hr : r.id = id)
    (command : Command) : Couples (World.Counterparts id free)
      (Attempt.withRecord r (command.act e)) (Attempt.withRecord r (command.act e)) := by
  intro w w' h
  have hsessions : Session.Counterparts id free ⟨r, w⟩ ⟨r, w'⟩ := ⟨h, hr, rfl⟩
  obtain ⟨hresult, hbehind⟩ :=
    (coupling_counterparts he id free).couples_command command hsessions
  rw [Attempt.withRecord, Attempt.withRecord]
  generalize command.act e ⟨r, w⟩ = final at hresult hbehind
  generalize command.act e ⟨r, w'⟩ = final' at hresult hbehind
  obtain ⟨result, s⟩ := final
  obtain ⟨_, s'⟩ := final'
  obtain rfl := hresult
  cases result with
  | ok _ => exact ⟨congrArg Except.ok hbehind.record, hbehind.toCounterparts⟩
  | error err => exact ⟨rfl, hbehind.toCounterparts⟩

/-- Both load the same record, which is one of the case. -/
theorem couples_loaded {f g : CaseRecord → Attempt σ CaseRecord}
    (h : ∀ r, r.id = id → Couples (World.Counterparts id free) (f r) (g r)) :
    Couples (World.Counterparts id free) (Attempt.record id >>= f) (Attempt.record id >>= g) := by
  have hloaded : Couples (World.Counterparts id free)
      (Attempt.record id : Attempt σ CaseRecord) (Attempt.record id) := by
    refine Couples.bind (fun _ _ h =>
      Attempt.ask_alike h h.outage h.asked .loadRecord h.store.record) fun found => ?_
    cases found with
    | none => exact couples_throw _
    | some r => exact couples_pure r
  refine hloaded.bind_of (P := (·.id = id)) (fun w r hr => ?_) h
  obtain ⟨_, -, ⟨r', hr', hfound⟩ | ⟨err, -, hfailed⟩⟩ := record_cases id w
  · rw [hfound] at hr
    obtain rfl := Except.ok.inj hr
    exact Register.key_of_find? hr'
  · rw [hfailed] at hr
    cases hr

theorem couples_byId (he : e.registry = .builtIn) (command : Command) :
    Couples (World.Counterparts id free)
      (do Attempt.withRecord (← Attempt.record id) (command.act e))
      (do Attempt.withRecord (← Attempt.record id) (command.act e)) :=
  couples_loaded fun _ hr => couples_withRecord he hr command

theorem couples_completeTask (he : e.registry = .builtIn) {taskId : Id} (hfree : free taskId)
    (resolution : Resolution) : Couples (World.Counterparts id free)
      (e.completeTask taskId resolution) (e.completeTask taskId resolution) := by
  intro w w' h
  have hget (w : World σ) : (get : Attempt σ (World σ)) w = (.ok w, w) := rfl
  have hunclaimed := h.unclaimed taskId hfree
  -- No other case's task has the id, so that it leads to the same task in both worlds.
  rw [completeTask, bind_of_ok (hget w), bind_of_ok (hget w'),
    ← h.store.task? hunclaimed (h.unclaimed' taskId hfree)]
  cases htask : w.store.task? taskId with
  | none => exact ⟨rfl, h⟩
  | some task =>
    obtain rfl : task.id = taskId := Store.id_of_task? htask
    have hid : task.recordId = id := hunclaimed.recordId htask
    refine (?_ : Couples (World.Counterparts id free) _ _) h
    by_cases hresolved : task.status.isTerminal
    · simp only [if_pos hresolved]
      exact couples_throw _
    simp only [if_neg hresolved, hid]
    refine couples_loaded fun r hr => ?_
    by_cases hterminal : r.status.isTerminal
    · simp only [if_pos hterminal]
      exact couples_throw _
    simp only [if_neg hterminal]
    by_cases hawaited : r.status ≠ .paused ∨
        r.executions.getLast?.map (·.id) ≠ some task.executionId
    · simp only [if_pos hawaited]
      exact couples_throw _
    simp only [if_neg hawaited]
    have hnow : Couples (World.Counterparts id free) (Attempt.sure World.now : Attempt σ Time)
        (Attempt.sure World.now) := fun _ _ h => ⟨congrArg Except.ok h.now, h.ticked⟩
    refine hnow.bind fun now => ?_
    let resolved := task.resolve resolution now
    have hsave : Couples (World.Counterparts id free)
        (Attempt.sure (World.updateStore (·.saveTask resolved)) : Attempt σ Unit)
        (Attempt.sure (World.updateStore (·.saveTask resolved))) :=
      fun _ _ h => ⟨rfl, h.saveTask hid hfree⟩
    let r' : CaseRecord := { r with executions := completeTask.amend resolved r.executions }
    have hr' : r'.id = id := hr
    exact hsave.bind fun _ => (couples_saveRecord r').bind fun _ =>
      couples_withRecord he hr' (.launch .resume)

theorem Operation.couples (he : e.registry = .builtIn) (op : Operation) (supply : Supply) :
    Couples (World.Counterparts id (op.Takes supply)) (op.run e id) (op.run e id) := by
  cases op with
  | start => exact couples_byId he (.launch .start)
  | resume => exact couples_byId he (.launch .resume)
  | cancel reason => exact couples_byId he (.cancel reason)
  | complete taskId resolution => exact couples_completeTask he (.inl rfl) resolution

/-- The operation comes to the same in worlds that are the same for the case. -/
theorem Operation.run_agrees (he : e.registry = .builtIn) {op : Operation} (h : w.Agrees id w')
    (hop : op.Clear id w) (hop' : op.Clear id w') : (op.run e id w).1 = (op.run e id w').1 ∧
      (op.run e id w).2.store.Agrees id (op.run e id w').2.store := by
  rw [Clear, ← h.supply] at hop'
  have hbehind := op.couples he w.supply ⟨h, fun x hx => op.takes_of_yields hx, hop, hop'⟩
  exact ⟨hbehind.1, hbehind.2.store⟩

/-! ### One case after another -/

/-- An id that no other case's task has is not taken by work on another case, as long as the work is
not about to draw it. -/
theorem unclaimed_of_within (h : w.Within id' w') (hne : id ≠ id') {x : Id}
    (hx : w.store.Unclaimed id x) (hkept : ¬ w.supply.Yields x) : w'.store.Unclaimed id x := by
  intro task htask htaskId
  obtain ⟨hmem, hother⟩ := Store.mem_otherTasks.1 htask
  by_cases hid : task.recordId = id'
  · have hown : x ∈ (w'.store.ownTasks id').map (·.id) :=
      htaskId ▸ List.mem_map_of_mem (Store.mem_ownTasks.2 ⟨hmem, hid⟩)
    have hold := (h.taskIds hown).resolve_right hkept
    obtain ⟨old, hold, holdId⟩ := List.mem_map.1 hold
    obtain ⟨hmem', hid'⟩ := Store.mem_ownTasks.1 hold
    exact hx old (Store.mem_otherTasks.2 ⟨hmem', hid'.trans_ne hne.symm⟩) holdId
  · have hold : task ∈ w.store.otherTasks id' := h.otherTasks ▸ Store.mem_otherTasks.2 ⟨hmem, hid⟩
    exact hx task (Store.mem_otherTasks.2 ⟨(Store.mem_otherTasks.1 hold).1, hother⟩) htaskId

/-- The operation comes to the same, with the same ids and times, once there has been work on
another case. -/
theorem Operation.run_behind (he : e.registry = .builtIn) {op : Operation} (hop : op.Clear id w)
    (hcalm : w.outage = none) (hne : id ≠ id') {supply : Supply}
    (hw : (w.supplied supply).Within id' w')
    (hapart : ∀ x, op.Takes w.supply x → ¬ supply.Yields x) :
    (op.run e id w).1 = (op.run e id (w'.supplied w.supply)).1 ∧
      (op.run e id w).2.store.Agrees id (op.run e id (w'.supplied w.supply)).2.store ∧
      op.Clear id (w'.supplied w.supply) := by
  have hagrees : w.Agrees id (w'.supplied w.supply) :=
    ⟨hw.toSameBeyond.agrees hne, rfl, hcalm.trans (hw.calm hcalm).symm⟩
  have hop' : op.Clear id (w'.supplied w.supply) := fun x hx =>
    unclaimed_of_within hw hne (hop x hx) (hapart x hx)
  obtain ⟨hresult, hbehind⟩ := op.run_agrees he hagrees hop hop'
  exact ⟨hresult, hbehind, hop'⟩

/-- The stores have the same record and the same tasks of the case. -/
def SameCase (id : Id) (s s' : Store) : Prop :=
  s.record? id = s'.record? id ∧ s.tasksOf id = s'.tasksOf id

theorem sameCase_of_agrees {s s' : Store} (h : s.Agrees id s') : SameCase id s s' :=
  ⟨h.record, Store.tasksOf_of_ownTasks h.ownTasks⟩

/-- Operations on two cases can be done in either order. Each draws ids and looks at the clock on
its own, and the ids that the one takes are none that the other takes. -/
theorem Operation.run_comm (he : e.registry = .builtIn) {op op' : Operation} (hne : id ≠ id')
    (hcalm : w.outage = none) {supply : Supply} (hop : op.Clear id w)
    (hop' : op'.Clear id' (w.supplied supply))
    (hapart : ∀ x, op.Takes w.supply x → ¬ op'.Takes supply x) :
    let final := op.run e id w
    let behind := op'.run e id' (final.2.supplied supply)
    let final' := op'.run e id' (w.supplied supply)
    let behind' := op.run e id (final'.2.supplied w.supply)
    final.1 = behind'.1 ∧ final'.1 = behind.1 ∧
      ∀ i, SameCase i behind.2.store behind'.2.store := by
  intro final behind final' behind'
  have hwithin : w.Within id final.2 := op.within he hop
  have hwithin' : (w.supplied supply).Within id' final'.2 := op'.within he hop'
  obtain ⟨hresult, hagrees, hclear⟩ := op.run_behind he hop hcalm hne hwithin'
    fun x hx hyields => hapart x hx (op'.takes_of_yields hyields)
  have hback : ((w.supplied supply).supplied w.supply).Within id final.2 := hwithin
  obtain ⟨hresult', hagrees', hclear'⟩ := op'.run_behind he hop' hcalm hne.symm hback
    fun x hx hyields => hapart x (op.takes_of_yields hyields) hx
  have hlater : (final.2.supplied supply).Within id' behind.2 := op'.within he hclear'
  have hlater' : (final'.2.supplied w.supply).Within id behind'.2 := op.within he hclear
  refine ⟨hresult, hresult', fun i => sameCase_of_agrees ?_⟩
  -- A case is as the operation on it has left it, and a third one is as it was.
  by_cases hid : i = id
  · subst hid
    exact (hlater.toSameBeyond.agrees hne).symm.trans hagrees
  have hkept' := hlater'.toSameBeyond.agrees hid
  by_cases hid' : i = id'
  · subst hid'
    exact hagrees'.symm.trans hkept'
  · have hkept := hlater.toSameBeyond.agrees hid'
    have hfirst := hwithin.toSameBeyond.agrees hid
    have hfirst' := hwithin'.toSameBeyond.agrees hid'
    exact hkept.symm.trans (hfirst.symm.trans (hfirst'.trans hkept'))

end Engine

/-! ### Two cases that need signatures -/

namespace SignOff

/-- Both cases wait for their first signatures. From now on the ids that are drawn are even. -/
def worldBoth : World Unit :=
  (engine.after world [.openCase "case" "sign-off" none .empty,
    .openCase "other" "sign-off" none .empty, .start ⟨0⟩, .start ⟨1⟩]).supplied
      ⟨world.clock, 20, fun n => ⟨10 + 2 * n⟩, 0⟩

/-- Another source, of odd ids. -/
def oddSupply : Supply := ⟨world.clock, 50, fun n => ⟨11 + 2 * n⟩, 0⟩

/-- Somebody signs for the first time. -/
def signed (taskId : Id) : Engine.Operation := .complete taskId ⟨false, none, none⟩

/-- Both cases have been opened. -/
def worldOpen : World Unit :=
  engine.after world [.openCase "case" "sign-off" none .empty,
    .openCase "other" "sign-off" none .empty]

def other : CaseRecord := .new ⟨1⟩ "other" template .empty ⟨1⟩

theorem worldBoth_eq : worldBoth =
    (behindStart other (behindStart opened worldOpen)).supplied
      ⟨world.clock, 20, fun n => ⟨10 + 2 * n⟩, 0⟩ := by
  have hfirst : (engine.startById ⟨0⟩ worldOpen).2 = behindStart opened worldOpen :=
    startById_eq rfl rfl rfl ⟨rfl, rfl⟩
  have hboth : (engine.startById ⟨1⟩ (engine.startById ⟨0⟩ worldOpen).2).2 =
      behindStart other (behindStart opened worldOpen) := by
    rw [hfirst]
    exact startById_eq rfl rfl rfl ⟨rfl, rfl⟩
  exact congrArg (World.supplied · _) hboth

/-- The other case has not been started yet. -/
def worldOther : World Unit :=
  { worldBoth with
    store := worldBoth.store.saveRecord (CaseRecord.new ⟨1⟩ "other" template .empty ⟨0⟩) }

theorem clear_of_ids {w : World Unit} {id : Id} {op : Engine.Operation} {ids : List Id}
    (hids : (w.store.otherTasks id).map (·.id) = ids) (h : ∀ x ∈ ids, ¬ op.Takes w.supply x) :
    op.Clear id w := by
  intro x hx task htask hid
  refine h x ?_ hx
  rw [← hids, ← hid]
  exact List.mem_map_of_mem htask

theorem takes_first (x : Id) (h : (signed ⟨3⟩).Takes worldBoth.supply x) :
    x.value = 3 ∨ ∃ n, x.value = 10 + 2 * n := by
  obtain rfl | ⟨n, -, rfl⟩ := h
  · exact .inl rfl
  · exact .inr ⟨n, rfl⟩

theorem takes_other (x : Id) (h : (signed ⟨5⟩).Takes oddSupply x) :
    x.value = 5 ∨ ∃ n, x.value = 11 + 2 * n := by
  obtain rfl | ⟨n, -, rfl⟩ := h
  · exact .inl rfl
  · exact .inr ⟨n, rfl⟩

theorem signed_clear {w : World Unit} (hsupply : w.supply = worldBoth.supply)
    (hids : (w.store.otherTasks ⟨0⟩).map (·.id) = [⟨5⟩]) : (signed ⟨3⟩).Clear ⟨0⟩ w := by
  refine clear_of_ids hids fun x hx htakes => ?_
  obtain rfl := List.mem_singleton.1 hx
  rw [hsupply] at htakes
  have hvalue : 5 = 3 ∨ ∃ n, 5 = 10 + 2 * n := takes_first _ htakes
  omega

end SignOff

namespace Engine

variable {e : Engine σ} {id : Id} {w : World σ}

/-! ### Isolation -/

/-- What an operation on a case has to do with other cases: it leaves them alone, it does not depend
on them, and it may change places with an operation on one of them. -/
structure Isolated (e : Engine σ) (id : Id) (op : Operation) (w : World σ) : Prop where
  others : ∀ {id'}, id' ≠ id → SameCase id' w.store (op.run e id w).2.store
  templates : (op.run e id w).2.store.templates = w.store.templates
  ruleSets : (op.run e id w).2.store.ruleSets = w.store.ruleSets
  formulas : (op.run e id w).2.store.formulas = w.store.formulas
  determined : ∀ {w'}, w.Agrees id w' → op.Clear id w' →
    (op.run e id w).1 = (op.run e id w').1 ∧
      SameCase id (op.run e id w).2.store (op.run e id w').2.store
  commutes : ∀ {id'} (op' : Operation) (supply : Supply), id ≠ id' → w.outage = none →
    op'.Clear id' (w.supplied supply) → (∀ x, op.Takes w.supply x → ¬ op'.Takes supply x) →
    let final := op.run e id w
    let behind := op'.run e id' (final.2.supplied supply)
    let final' := op'.run e id' (w.supplied supply)
    let behind' := op.run e id (final'.2.supplied w.supply)
    final.1 = behind'.1 ∧ final'.1 = behind.1 ∧
      ∀ i, SameCase i behind.2.store behind'.2.store

/-- Whatever is done with a case, other cases have nothing to do with it. -/
theorem cases_isolated (he : e.registry = .builtIn) {op : Operation} (hop : op.Clear id w) :
    e.Isolated id op w := by
  have hwithin : w.Within id (op.run e id w).2 := op.within he hop
  refine ⟨fun hne => sameCase_of_agrees (hwithin.toSameBeyond.agrees hne), hwithin.templates,
    hwithin.ruleSets, hwithin.formulas, fun hw' hop' => ?_, ?_⟩
  · obtain ⟨hresult, hbehind⟩ := op.run_agrees he hw' hop hop'
    exact ⟨hresult, sameCase_of_agrees hbehind⟩
  · intro id' op' supply hne hcalm hop' hapart
    exact Operation.run_comm he hne hcalm hop hop' hapart

open SignOff in
theorem cases_isolated_signOff :
    let final := (signed ⟨3⟩).run engine ⟨0⟩ worldBoth
    let behind := (signed ⟨5⟩).run engine ⟨1⟩ (final.2.supplied oddSupply)
    let final' := (signed ⟨5⟩).run engine ⟨1⟩ (worldBoth.supplied oddSupply)
    let behind' := (signed ⟨3⟩).run engine ⟨0⟩ (final'.2.supplied worldBoth.supply)
    SameCase ⟨1⟩ worldBoth.store final.2.store ∧
      final.1 = ((signed ⟨3⟩).run engine ⟨0⟩ worldOther).1 ∧
      final.1 = behind'.1 ∧ final'.1 = behind.1 ∧
      ∀ i, SameCase i behind.2.store behind'.2.store := by
  have hclear : (signed ⟨3⟩).Clear ⟨0⟩ worldBoth := by
    refine signed_clear rfl ?_
    rw [worldBoth_eq]
    decide +kernel
  have hclear' : (signed ⟨5⟩).Clear ⟨1⟩ (worldBoth.supplied oddSupply) := by
    have hids : ((worldBoth.supplied oddSupply).store.otherTasks ⟨1⟩).map (·.id) = [⟨3⟩] := by
      rw [worldBoth_eq]
      decide +kernel
    refine clear_of_ids hids fun x hx htakes => ?_
    obtain rfl := List.mem_singleton.1 hx
    have hvalue : 3 = 5 ∨ ∃ n, 3 = 11 + 2 * n := takes_other _ htakes
    omega
  have hagrees : worldBoth.Agrees ⟨0⟩ worldOther := by
    refine ⟨⟨rfl, rfl, rfl, ?_, rfl⟩, rfl, rfl⟩
    exact ((Store.record?_saveRecord ..).trans (if_neg (by decide))).symm
  have hapart : ∀ x, (signed ⟨3⟩).Takes worldBoth.supply x → ¬ (signed ⟨5⟩).Takes oddSupply x := by
    intro x htakes htakes'
    rcases takes_first x htakes with hx | ⟨m, hx⟩ <;>
      rcases takes_other x htakes' with hx' | ⟨n, hx'⟩ <;> omega
  have hcalm : worldBoth.outage = none := by
    rw [worldBoth_eq]
    decide +kernel
  have hclearOther : (signed ⟨3⟩).Clear ⟨0⟩ worldOther := by
    refine signed_clear rfl ?_
    rw [worldOther, worldBoth_eq]
    decide +kernel
  have hisolated : engine.Isolated ⟨0⟩ (signed ⟨3⟩) worldBoth := cases_isolated rfl hclear
  refine ⟨hisolated.others (by decide), ?_, ?_⟩
  · exact (hisolated.determined hagrees hclearOther).1
  · exact hisolated.commutes (signed ⟨5⟩) oddSupply (by decide) hcalm hclear' hapart

end Engine

end Casework
