import Casework.Proofs.Engine.Preservation
import Casework.Proofs.Engine.Settlement

/-!
# Through the whole life of a case

Callers open a case, load its record, start, resume and cancel it with a record at hand, which may
be out of date, or by its id, and complete its tasks. Whatever they have done, and whatever has
happened to other cases meanwhile, the ids of the executions in the store are distinct. So what is
done next keeps to the history: nothing of it changes, but for an execution that was under way and
the output of the last one, into which a task puts its resolution. A case that has ended stays as it
is.
-/

namespace Casework

variable {σ : Type}

/-! ### What may become of a record -/

namespace CaseRecord

/-- The later record is of the same case, and its history goes on where the earlier one ends. -/
structure Grows (r r' : CaseRecord) : Prop where
  origin : r'.origin = r.origin
  executions : Execution.Extend r.executions r'.executions

theorem Grows.refl (r : CaseRecord) : r.Grows r := ⟨rfl, .refl _⟩

/-- The record with another output of the last execution. -/
def withLastOutput (r : CaseRecord) (output : Option String) : CaseRecord :=
  { r with executions := r.executions.modify (r.executions.length - 1) ({ · with output }) }

/-- The past of which the record is known. -/
def past (r : CaseRecord) (w : World σ) : Past := ⟨r.origin, r.executions, w.ids, w.drawn⟩

end CaseRecord

namespace Engine

open Work Casework.Action

/-- What a caller can do with a case by its id. -/
inductive Operation where
  | start
  | resume
  | cancel (reason : Option String)
  | complete (taskId : Id) (resolution : Resolution)

namespace Operation

def run (e : Engine σ) (id : Id) : Operation → Attempt σ CaseRecord
  | .start => e.startById id
  | .resume => e.resumeById id
  | .cancel reason => cancelById id reason
  | .complete taskId resolution => e.completeTask taskId resolution

/-- If a task is completed, it is one of the case. -/
def Concerns (id : Id) (w : World σ) : Operation → Prop
  | .complete taskId _ => ∀ task, w.store.task? taskId = some task → task.recordId = id
  | _ => True

/-- The record with which the case goes on. -/
def Readies (r r' : CaseRecord) : Operation → Prop
  | .complete _ _ => r.status = .paused ∧ ∃ task,
      r.executions.getLast?.map (·.id) = some task.executionId ∧
      r' = { r with executions := completeTask.amend task r.executions }
  | _ => r' = r

/-- What the operation may make of the record. -/
def MayTurn (r r' : CaseRecord) : Operation → Prop
  | .complete _ _ => r.Grows r' ∨ ∃ output, (r.withLastOutput output).Grows r'
  | _ => r.Grows r'

theorem mayTurn_of_grows {r r' : CaseRecord} (h : r.Grows r') (op : Operation) :
    op.MayTurn r r' := by
  cases op with
  | complete => exact .inl h
  | start | resume | cancel => exact h

end Operation

/-! ### Operations on the stored record -/

section Stored

variable {e : Engine σ} {id : Id} {p : Past}

/-- A command by id is one on the record in the store, if that can be had. -/
theorem byId_cases (id : Id) (act : Action σ Unit) (w : World σ) :
    ∃ outage, (w.outage = none → outage = none) ∧
      let work : Attempt σ CaseRecord := do Attempt.withRecord (← Attempt.record id) act
      (∃ err, (err = .recordNotFound id ∨ w.outage ≠ none ∧ err = .callLost .loadRecord) ∧
          work w = (.error err, { w with outage })) ∨
        ∃ r, w.store.record? id = some r ∧ work w = Attempt.withRecord r act { w with outage } := by
  obtain ⟨outage, hcalm, ⟨r, hr, hrecord⟩ | ⟨err, herr, hrecord⟩⟩ := record_cases id w
  · exact ⟨outage, hcalm, .inr ⟨r, hr, bind_of_ok hrecord⟩⟩
  · exact ⟨outage, hcalm, .inl ⟨err, herr, bind_of_error hrecord⟩⟩

/-- A task puts its resolution into the last execution, as long as no other has the same id. -/
theorem amend_eq_modify {es : List Execution} (hdistinct : (es.map (·.id)).Nodup) {task : CaseTask}
    (hlast : es.getLast?.map (·.id) = some task.executionId) : ∃ output,
      completeTask.amend task es = es.modify (es.length - 1) ({ · with output }) := by
  obtain ⟨x, hx, hid⟩ := Option.map_eq_some_iff.1 hlast
  obtain ⟨before, rfl⟩ := List.getLast?_eq_some_iff.1 hx
  have hplace : (before ++ [x]).findIdx? (fun y => y.id == task.executionId) =
      some before.length := by
    rw [← hid]
    refine Execution.findIdx?_last fun y hy => ?_
    rw [List.map_append, List.nodup_append] at hdistinct
    exact hdistinct.2.2 y.id (List.mem_map_of_mem hy) x.id (by simp)
  refine ⟨some (task.amendedOutput x.output), ?_⟩
  rw [completeTask.amend, hplace, List.length_append, List.length_singleton, Nat.add_sub_cancel]
  simp only
  rw [Visit.modify_length_append, Visit.modify_length_append]

namespace Operation.Readies

variable {op : Operation} {r r' r'' : CaseRecord}

theorem mayTurn (h : op.Readies r r') (hdistinct : (r.executions.map (·.id)).Nodup)
    (hgrows : r'.Grows r'') : op.MayTurn r r'' := by
  cases op with
  | complete taskId resolution =>
    obtain ⟨-, task, hlast, rfl⟩ := h
    obtain ⟨output, hamend⟩ := amend_eq_modify hdistinct hlast
    rw [hamend] at hgrows
    exact .inr ⟨output, hgrows⟩
  | start | resume | cancel =>
    obtain rfl : r' = r := h
    exact hgrows

/-- If nothing is known of the history, what a task does to it does not matter. -/
theorem follows {drawn : Nat} (h : op.Readies r r') (hp : p.executions = [])
    (hr : r.Follows p drawn) : r'.Follows p drawn := by
  cases op with
  | complete taskId resolution =>
    obtain ⟨-, task, -, rfl⟩ := h
    exact hr.replace (hp ▸ .nil _) (completeTask.ids_amend task r.executions)
  | start | resume | cancel =>
    obtain rfl : r' = r := h
    exact hr

end Operation.Readies

/-- A command on the stored record, made ready for it. -/
structure Operation.Runs (e : Engine σ) (id : Id) (op : Operation) (w : World σ) (r : CaseRecord)
    (s : Session σ) (command : Command) : Prop where
  stored : w.store.record? id = some r
  live : r.status.isTerminal = false
  readied : op.Readies r s.record
  saved : s.world.store.record? id = some s.record
  ids : s.world.ids = w.ids
  drawn : s.world.drawn = w.drawn
  calm : w.outage = none → s.world.outage = none
  templates : s.world.store.templates = w.store.templates
  run : op.run e id w = Attempt.withRecord s.record (command.act e) s.world

theorem Operation.Runs.result {op : Operation} {w : World σ} {r : CaseRecord} {s : Session σ}
    {command : Command} (h : op.Runs e id w r s command) :
    (op.run e id w).2 = (command.act e s).2.world := by
  rw [h.run, withRecord_world]

/-- An operation comes to nothing if there is no such record or task, if it does not fit the case,
or if a call is lost. -/
structure Operation.Fails (e : Engine σ) (id : Id) (op : Operation) (w : World σ) : Prop where
  spares : w.Spares id (op.run e id w).2
  calm : w.outage = none → (op.run e id w).2.outage = none
  templates : (op.run e id w).2.store.templates = w.store.templates
  error : ∃ err : EngineError, (op.run e id w).1 = .error err ∧
    (err.deniesTask ∨ err.isRefusal ∨ ∃ call, err = .callLost call)

theorem Operation.Fails.of_eq {op : Operation} {w w' : World σ} {err : EngineError}
    (h : op.run e id w = (.error err, w')) (hspares : w.Spares id w')
    (hcalm : w.outage = none → w'.outage = none)
    (htemplates : w'.store.templates = w.store.templates)
    (herr : err.deniesTask ∨ err.isRefusal ∨ ∃ call, err = .callLost call) : op.Fails e id w where
  spares := by rw [h]; exact hspares
  calm := by rw [h]; exact hcalm
  templates := by rw [h]; exact htemplates
  error := ⟨err, congrArg Prod.fst h, herr⟩

theorem byId_fails_or_runs {op : Operation} (command : Command) {w : World σ}
    (hop : op.run e id = do Attempt.withRecord (← Attempt.record id) (command.act e))
    (hready : ∀ r, op.Readies r r) :
    op.Fails e id w ∨ ∃ r s command, op.Runs e id w r s command := by
  obtain ⟨outage, hcalm, ⟨err, herr, hfailed⟩ | ⟨r, hr, hresult⟩⟩ := byId_cases id (command.act e) w
  · rw [← hop] at hfailed
    refine .inl (.of_eq hfailed ⟨rfl, Nat.le_refl _, .inl rfl⟩ hcalm rfl ?_)
    rcases herr with rfl | ⟨-, rfl⟩
    · exact .inl rfl
    · exact .inr (.inr ⟨_, rfl⟩)
  rw [← hop] at hresult
  cases hlive : r.status.isTerminal with
  | true =>
    obtain ⟨err, hrefusal, hact⟩ := command.refused (e := e) (s := ⟨r, { w with outage }⟩)
      (command.accepts_of_terminal hlive)
    rw [Attempt.withRecord, hact] at hresult
    exact .inl (.of_eq hresult ⟨rfl, Nat.le_refl _, .inl rfl⟩ hcalm rfl (.inr (.inl hrefusal)))
  | false =>
    exact .inr ⟨r, ⟨r, { w with outage }⟩, command, hr, hlive, hready r, hr, rfl, rfl, hcalm, rfl,
      hresult⟩

/-- Unless it comes to nothing, to complete a task is to save it resolved, to save the record of the
case and to resume the case. The second save may be lost. -/
theorem completeTask_saves_cases (taskId : Id) (resolution : Resolution) (w : World σ) :
    ∃ outage, (w.outage = none → outage = none) ∧
      ((∃ err : EngineError, (err.deniesTask ∨ ∃ call, err = .callLost call) ∧
          e.completeTask taskId resolution w = (.error err, { w with outage })) ∨
        ∃ task r, w.store.task? taskId = some task ∧ w.store.record? task.recordId = some r ∧
          r.status = .paused ∧ r.executions.getLast?.map (·.id) = some task.executionId ∧
          let resolved := task.resolve resolution (w.clock w.readings)
          let r' := { r with executions := completeTask.amend resolved r.executions }
          let kept : World σ :=
            { w with outage, readings := w.readings + 1, store := w.store.saveTask resolved }
          e.completeTask taskId resolution w = (.error (.callLost .saveRecord), kept) ∨
            e.completeTask taskId resolution w =
              Attempt.withRecord r' e.resume { kept with store := kept.store.saveRecord r' }) := by
  obtain ⟨outage, hcalm, ⟨err, herr, hfailed⟩ | ⟨task, r, htask, -, hr, hpaused, hlast, hgoesOn⟩⟩ :=
    completeTask_cases (e := e) taskId resolution w
  · exact ⟨outage, hcalm, .inl ⟨err, herr.imp_right fun hlost => ⟨_, hlost.2⟩, hfailed⟩⟩
  let resolved := task.resolve resolution (w.clock w.readings)
  let r' : CaseRecord := { r with executions := completeTask.amend resolved r.executions }
  let kept : World σ :=
    { w with outage, readings := w.readings + 1, store := w.store.saveTask resolved }
  obtain ⟨outage', hcalm', hsaved | hlost⟩ := Attempt.saveRecord_cases r' kept
  · refine ⟨outage', fun h => hcalm' (hcalm h), .inr ⟨task, r, htask, hr, hpaused, hlast, .inr ?_⟩⟩
    rw [hgoesOn, bind_of_ok hsaved]
  · refine ⟨outage', fun h => hcalm' (hcalm h), .inr ⟨task, r, htask, hr, hpaused, hlast, .inl ?_⟩⟩
    rw [hgoesOn, bind_of_error hlost]

theorem complete_fails_or_runs {w : World σ} {taskId : Id}
    (hid : ∀ task, w.store.task? taskId = some task → task.recordId = id)
    (resolution : Resolution) : Operation.Fails e id (.complete taskId resolution) w ∨
      ∃ r s command, Operation.Runs e id (.complete taskId resolution) w r s command := by
  obtain ⟨outage, hcalm, ⟨err, herr, hfailed⟩ |
    ⟨task, r, htask, hr, hpaused, hlast, hlost | hgoesOn⟩⟩ :=
      completeTask_saves_cases (e := e) taskId resolution w
  · exact .inl (.of_eq hfailed ⟨rfl, Nat.le_refl _, .inl rfl⟩ hcalm rfl (herr.imp_right .inr))
  · exact .inl (.of_eq hlost ⟨rfl, Nat.le_refl _, .inl rfl⟩ hcalm rfl (.inr (.inr ⟨_, rfl⟩)))
  rw [hid task htask] at hr
  let resolved := task.resolve resolution (w.clock w.readings)
  let r' : CaseRecord := { r with executions := completeTask.amend resolved r.executions }
  let saved : World σ := { w with
    outage, readings := w.readings + 1, store := (w.store.saveTask resolved).saveRecord r' }
  have hlive : r.status.isTerminal = false := by
    rw [hpaused]
    rfl
  have hstored : saved.store.record? id = some r' := by
    rw [← Register.key_of_find? hr]
    exact Store.record?_saveRecord_self _ r'
  exact .inr ⟨r, ⟨r', saved⟩, .launch .resume, hr, hlive, ⟨hpaused, resolved, hlast, rfl⟩, hstored,
    rfl, rfl, hcalm, rfl, hgoesOn⟩

/-- An operation is refused or lost, or it comes to a command on the record in the store. -/
theorem Operation.fails_or_runs (op : Operation) {w : World σ} (hop : op.Concerns id w) :
    op.Fails e id w ∨ ∃ r s command, op.Runs e id w r s command := by
  cases op with
  | start => exact byId_fails_or_runs (.launch .start) rfl fun _ => rfl
  | resume => exact byId_fails_or_runs (.launch .resume) rfl fun _ => rfl
  | cancel reason => exact byId_fails_or_runs (.cancel reason) rfl fun _ => rfl
  | complete taskId resolution => exact complete_fails_or_runs hop resolution

theorem Operation.spares_or_runs (op : Operation) {w : World σ} (hop : op.Concerns id w) :
    w.Spares id (op.run e id w).2 ∨ ∃ r s command, op.Runs e id w r s command :=
  (op.fails_or_runs hop).imp_left fun h => h.spares

theorem keeps_command (hids : Function.Injective p.ids) (he : e.registry.Spares p.origin.id)
    (command : Command) : Keeps p (command.act e) :=
  fun s h => ((upkeep_follows hids he).upholds_command (.any _ _) command s h).property

end Stored

/-! ### Reachable stores -/

/-- The stores that are reached from one in which the case has just been opened, each with the
records that callers hold of the case by then. Meanwhile there may be work on other cases, and
somebody may have cancelled this one. -/
inductive Reaches (e : Engine σ) (r₀ : CaseRecord) (w₀ : World σ) :
    World σ → List CaseRecord → Prop
  | opened : Reaches e r₀ w₀ w₀ [r₀]
  | load {w : World σ} {held : List CaseRecord} {r : CaseRecord} (h : Reaches e r₀ w₀ w held)
      (hr : w.store.record? r₀.id = some r) : Reaches e r₀ w₀ w (r :: held)
  | command {w : World σ} {held : List CaseRecord} {r : CaseRecord} (h : Reaches e r₀ w₀ w held)
      (hr : r ∈ held) (command : Command) :
      Reaches e r₀ w₀ (command.act e ⟨r, w⟩).2.world ((command.act e ⟨r, w⟩).2.record :: held)
  | operate {w : World σ} {held : List CaseRecord} (h : Reaches e r₀ w₀ w held) (op : Operation)
      (hop : op.Concerns r₀.id w) : Reaches e r₀ w₀ (op.run e r₀.id w).2 held
  | meanwhile {w w' : World σ} {held : List CaseRecord} (h : Reaches e r₀ w₀ w held)
      (hw : w.Spares r₀.id w') : Reaches e r₀ w₀ w' held

variable {e : Engine σ} {p : Past} {w w' : World σ} {held : List CaseRecord}

/-- The stored record follows the past, and so do the records that callers hold. -/
structure Sound (p : Past) (w : World σ) (held : List CaseRecord) : Prop extends w.Follows p where
  held : ∀ r ∈ held, r.Follows p w.drawn

namespace Sound

theorem spared (h : Sound p w held) (hw : w.Spares p.origin.id w') : Sound p w' held :=
  ⟨h.toFollows.spared hw, fun r hr => (h.held r hr).later hw.drawn⟩

/-- Callers go on from here with a record that follows the past. -/
theorem now (h : Sound p w held) {r : CaseRecord} (hr : r.Follows p w.drawn) :
    Session.Follows { p with drawn := w.drawn } ⟨r, w⟩ := by
  obtain ⟨r', hr', hfollows⟩ := h.stored
  exact ⟨⟨h.ids, Nat.le_refl _, r', hr', hfollows.rebase _ hfollows.executions⟩,
    hr.rebase _ hr.executions⟩

/-- What follows the past is behind a command what has followed it from here on. -/
theorem behind {s : Session σ} (h : Sound p w held)
    (hs : s.Follows { p with drawn := w.drawn }) :
    Sound p s.world (s.record :: held) where
  ids := hs.ids
  drawn := Nat.le_trans h.drawn hs.drawn
  stored := by
    obtain ⟨r, hr, hfollows⟩ := hs.stored
    exact ⟨r, hr, hfollows.rebase p.drawn hfollows.executions⟩
  held := by
    refine List.forall_mem_cons.2 ⟨hs.record.rebase p.drawn hs.record.executions, ?_⟩
    exact fun r hr => (h.held r hr).later hs.drawn

end Sound

theorem Operation.Runs.follows {op : Operation} {r : CaseRecord} {s : Session σ}
    {command : Command} (hruns : op.Runs e p.origin.id w r s command) (hw : w.ids = p.ids)
    (hr : s.record.Follows p w.drawn) (executions : List Execution)
    (hextend : Execution.Extend executions s.record.executions) :
    s.Follows { p with executions, drawn := w.drawn } := by
  have hfollows := hr.rebase w.drawn hextend
  rw [← hruns.drawn] at hfollows ⊢
  exact ⟨⟨hruns.ids.trans hw, Nat.le_refl _, s.record, hruns.saved, hfollows⟩, hfollows⟩

/-- Whatever callers do, the records are sound. -/
theorem Reaches.sound {r₀ : CaseRecord} {w₀ : World σ} (h : e.Reaches r₀ w₀ w held)
    (hids : Function.Injective w₀.ids) (he : e.registry.Spares r₀.id)
    (hstored : w₀.store.record? r₀.id = some r₀) (hnew : r₀.executions = []) :
    Sound ⟨r₀.origin, [], w₀.ids, w₀.drawn⟩ w held := by
  induction h with
  | opened =>
    have hfollows : r₀.Follows ⟨r₀.origin, [], w₀.ids, w₀.drawn⟩ w₀.drawn := by
      refine ⟨rfl, .nil _, ?_, ?_⟩ <;> rw [hnew]
      · exact .nil
      · exact nofun
    exact ⟨⟨rfl, Nat.le_refl _, r₀, hstored, hfollows⟩, by simpa using hfollows⟩
  | load _ hr ih => exact ⟨ih.toFollows, List.forall_mem_cons.2 ⟨ih.of_record? hr, ih.held⟩⟩
  | @command w held r _ hr command ih =>
    exact ih.behind (keeps_command hids he command _ (ih.now (ih.held r hr)))
  | @operate w held _ op hop ih =>
    rcases op.spares_or_runs (e := e) hop with hspares | ⟨r, s, command, hruns⟩
    · exact ih.spared hspares
    · have hr := hruns.readied.follows rfl (ih.of_record? hruns.stored)
      have hnow := hruns.follows ih.ids hr [] (.nil _)
      have hbehind := ih.behind (keeps_command hids he command s hnow)
      rw [hruns.result]
      exact ⟨hbehind.toFollows, (List.forall_mem_cons.1 hbehind.held).2⟩
  | meanwhile _ hw ih => exact ih.spared hw

/-! ### A case that is withdrawn while it runs -/

/-- To cancel a case spares it, and any other. -/
theorem cancelById_spares (id id' : Id) (reason : Option String) (w : World σ) :
    w.Spares id (cancelById id' reason w).2 := by
  obtain ⟨outage, -, ⟨_, -, hsame⟩ | ⟨r, hr, hresult⟩⟩ := byId_cases id' (cancel reason) w
  · rw [cancelById, hsame]
    exact ⟨rfl, Nat.le_refl _, .inl rfl⟩
  rw [cancelById, hresult, withRecord_world]
  let s : Session σ := ⟨r, { w with outage }⟩
  cases hlive : r.status.isTerminal with
  | true =>
    rw [cancel_of_terminal (s := s) hlive]
    exact ⟨rfl, Nat.le_refl _, .inl rfl⟩
  | false =>
    rw [cancel_eq_save (s := s) hlive]
    obtain ⟨outage', -, hsaved | hlost⟩ :=
      save_cases ((s.become .cancelled).blamed (reason.getD "Cancelled"))
    · rw [hsaved]
      refine ⟨rfl, Nat.le_refl _, ?_⟩
      by_cases hid : id' = id
      · obtain rfl := hid
        refine .inr ⟨r, reason.getD "Cancelled", s.now, (s.become .cancelled).now, hr, hlive, ?_⟩
        rw [← Register.key_of_find? hr]
        exact Store.record?_saveRecord_self _ _
      · refine .inl ((Store.record?_saveRecord _ _ _).trans (if_neg ?_))
        exact fun hsame => hid ((Register.key_of_find? hr).symm.trans hsame)
    · rw [hlost]
      exact ⟨rfl, Nat.le_refl _, .inl rfl⟩

namespace Withdrawal

theorem spares (id : Id) : engine.registry.Spares id := by
  intro type x hx step execution record w
  cases type with
  | calculation =>
    obtain rfl := Option.some.inj hx
    exact cancelById_spares id record.id _ w
  | decisionTable | humanTask | clientApproval | documentGeneration => exact nomatch hx

/-- The world before the case is opened. -/
def world : World Unit :=
  { opened.world with
    store := { Store.empty with templates := Register.empty.insert template }
    readings := 0
    drawn := 0 }

end Withdrawal

/-! ### What an operation makes of the stored record -/

/-- The history of a case is only ever continued, and once the case has ended its record stays as it
is: whatever callers have done since it was opened, and whichever operation comes next. -/
theorem operation_keeps_history {caseId templateId : String} {version : Option Nat}
    {data : Dictionary String} {w₀ w₁ : World σ} {r₀ : CaseRecord}
    (hopen : openCase caseId templateId version data w₀ = (.ok r₀, w₁))
    (hids : Function.Injective w₁.ids) (he : e.registry.Spares r₀.id)
    (hreach : e.Reaches r₀ w₁ w held) (op : Operation) (hop : op.Concerns r₀.id w) :
    ∃ r r', w.store.record? r₀.id = some r ∧
      (op.run e r₀.id w).2.store.record? r₀.id = some r' ∧ op.MayTurn r r' ∧
      (r.status.isTerminal → r' = r) := by
  obtain ⟨hstored, hnew⟩ := openCase_stored hopen
  have hsound := hreach.sound hids he hstored hnew
  obtain ⟨r, hr, hfollows⟩ := hsound.toFollows.stored
  refine ⟨r, ?_⟩
  rcases op.spares_or_runs (e := e) hop with hspares | ⟨r', s, command, hruns⟩
  · rcases hspares.record with hsame | ⟨r', reason, now, later, hr', hlive, hwithdrawn⟩
    · exact ⟨r, hr, hsame.trans hr, op.mayTurn_of_grows (.refl r), fun _ => rfl⟩
    · obtain rfl : r' = r := Option.some.inj (hr'.symm.trans hr)
      have hgrows : r'.Grows (r'.withdrawn reason now later) := ⟨rfl, .refl _⟩
      refine ⟨_, hr, hwithdrawn, op.mayTurn_of_grows hgrows, fun hover => ?_⟩
      cases hlive.symm.trans hover
  · obtain rfl : r' = r := Option.some.inj (hruns.stored.symm.trans hr)
    have hready := hruns.readied.follows rfl hfollows
    have hnow := hruns.follows hsound.ids hready s.record.executions (.refl _)
    obtain ⟨r'', hr'', hfollows''⟩ := (keeps_command hids he command s hnow).stored
    have hgrows : s.record.Grows r'' :=
      ⟨hfollows''.origin.trans hready.origin.symm, hfollows''.executions⟩
    refine ⟨r'', hr, hruns.result ▸ hr'', hruns.readied.mayTurn hfollows.distinct hgrows, ?_⟩
    exact fun hover => nomatch hruns.live.symm.trans hover

open Withdrawal in
theorem operation_keeps_history_withdrawal : ∃ r r',
    opened.world.store.record? opened.record.id = some r ∧
      ((Operation.start).run engine opened.record.id opened.world).2.store.record?
        opened.record.id = some r' ∧
      (Operation.start).MayTurn r r' ∧ (r.status.isTerminal → r' = r) := by
  have hopen : openCase "case" "claim" none .empty Withdrawal.world =
    (.ok opened.record, opened.world) := rfl
  refine operation_keeps_history hopen ?_ (spares _) .opened .start trivial
  intro m n h
  cases h
  rfl

end Engine

end Casework
