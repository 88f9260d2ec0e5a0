import Casework.Proofs.Engine.Upkeep

/-!
# Actions keep to the history of a case

An action of an engine on a case whose record follows a past, in the caller's hands as well as in
the store, leaves records that follow it, whether it succeeds or fails and whether or not a call to
the store is lost on the way. This holds of each move, and so of every command. Executors may do what
they like, as long as they spare the case: of its record in the store they may only make one of a
case that is cancelled.
-/

namespace Casework

variable {σ α : Type}

/-- The record that whoever cancels the case leaves in the store. -/
def CaseRecord.withdrawn (r : CaseRecord) (reason : String) (now later : Time) : CaseRecord :=
  { r.become .cancelled now with error := some reason, updatedAt := later }

/-- The case is in the store as it was, or has been cancelled there, and only new ids have been
drawn. -/
structure World.Spares (id : Id) (w w' : World σ) : Prop where
  ids : w'.ids = w.ids
  drawn : w.drawn ≤ w'.drawn
  record : w'.store.record? id = w.store.record? id ∨ ∃ r reason now later,
    w.store.record? id = some r ∧ r.status.isTerminal = false ∧
      w'.store.record? id = some (r.withdrawn reason now later)

/-- Nobody brings back a case that has ended. -/
theorem World.Spares.kept {id : Id} {w w' : World σ} (h : w.Spares id w') {r : CaseRecord}
    (hr : w.store.record? id = some r) (hover : r.status.isTerminal) :
    w'.store.record? id = some r := by
  rcases h.record with hsame | ⟨r', reason, now, later, hr', hlive, -⟩
  · exact hsame.trans hr
  · obtain rfl : r' = r := Option.some.inj (hr'.symm.trans hr)
    cases hlive.symm.trans hover

def Executor.Spares (id : Id) (x : Executor σ) : Prop :=
  ∀ step execution record w, World.Spares id w (x step execution record w).2

def Registry.Spares (id : Id) (reg : Registry σ) : Prop :=
  ∀ {type x}, reg.executor? type = some x → Executor.Spares id x

/-- The record in the store follows the past, and no id that was drawn then is drawn again. -/
structure World.Follows (p : Past) (w : World σ) : Prop where
  ids : w.ids = p.ids
  drawn : p.drawn ≤ w.drawn
  stored : ∃ r, w.store.record? p.origin.id = some r ∧ r.Follows p w.drawn

theorem World.Follows.of_record? {p : Past} {w : World σ} (h : w.Follows p) {r : CaseRecord}
    (hr : w.store.record? p.origin.id = some r) : r.Follows p w.drawn := by
  obtain ⟨r', hr', hfollows⟩ := h.stored
  obtain rfl : r' = r := Option.some.inj (hr'.symm.trans hr)
  exact hfollows

theorem World.Follows.spared {p : Past} {w w' : World σ} (h : w.Follows p)
    (hw : w.Spares p.origin.id w') : w'.Follows p where
  ids := hw.ids.trans h.ids
  drawn := Nat.le_trans h.drawn hw.drawn
  stored := by
    obtain ⟨r, hr, hfollows⟩ := h.stored
    rcases hw.record with hsame | ⟨r', reason, now, later, hr', -, hwithdrawn⟩
    · exact ⟨r, hsame.trans hr, hfollows.later hw.drawn⟩
    · obtain rfl : r' = r := Option.some.inj (hr'.symm.trans hr)
      have hcancelled : (r'.withdrawn reason now later).Follows p w.drawn := hfollows.of_eq rfl rfl
      exact ⟨_, hwithdrawn, hcancelled.later hw.drawn⟩

namespace Session

/-- The record at hand follows the past as well. -/
structure Follows (p : Past) (s : Session σ) : Prop extends s.world.Follows p where
  record : s.record.Follows p s.world.drawn

namespace Follows

variable {p : Past} {s : Session σ}

theorem with_record (h : s.Follows p) {r : CaseRecord} (hr : r.Follows p s.world.drawn) :
    Follows p { s with record := r } :=
  ⟨h.toFollows, hr⟩

theorem spared (h : s.Follows p) {w : World σ} (hw : s.world.Spares p.origin.id w) :
    Follows p { s with world := w } :=
  ⟨h.toFollows.spared hw, h.record.later hw.drawn⟩

theorem with_outage (h : s.Follows p) (outage : Option Outage) :
    Follows p { s with world := { s.world with outage } } :=
  h.spared ⟨rfl, Nat.le_refl _, .inl rfl⟩

/-- A save puts the record at hand in the place of the one in the store. -/
theorem with_saved (h : s.Follows p) :
    Follows p { s with world := { s.world with store := s.world.store.saveRecord s.record } } where
  ids := h.ids
  drawn := h.drawn
  record := h.record
  stored := ⟨s.record, by rw [← h.record.id]; exact Store.record?_saveRecord_self .., h.record⟩

theorem extended (h : s.Follows p) (hids : Function.Injective p.ids) {x : Execution}
    (hx : x.id = s.world.ids s.world.drawn) : (s.drawn.ticked.extended x).Follows p := by
  obtain ⟨r, hr, hfollows⟩ := h.stored
  refine ⟨⟨h.ids, Nat.le_succ_of_le h.drawn, r, hr, hfollows.later (Nat.le_succ _)⟩, ?_⟩
  exact h.record.append hids (hx.trans (congrFun h.ids _))

theorem matured (h : s.Follows p) {executions : List Execution}
    (hmatures : s.record.executions.Forall₂ Execution.Matures executions) :
    Follows p { s with record := { s.record with executions } } :=
  h.with_record (h.record.replace (h.record.executions.trans (.of_forall₂ hmatures))
    (Execution.ids_of_forall₂ hmatures))

/-- The execution that was begun last is no part of the past, whatever has come of it. -/
theorem settled {s' : Session σ} {step : Step} (h : s.Follows p) (h' : s'.Follows p)
    (hbegun : s'.record = (s.begun step).record) {y : Execution}
    (hy : y.id = (s.execution step).id) :
    Follows p { s' with record := { s'.record with executions := s.record.executions ++ [y] } } := by
  have hexecutions : s'.record.executions = s.record.executions ++ [s.execution step] := by
    rw [hbegun]
    rfl
  refine h'.with_record (h'.record.replace (h.record.executions.trans (.append _ _)) ?_)
  rw [hexecutions, List.map_append, List.map_append, List.map_singleton, List.map_singleton, hy]

end Follows

end Session

namespace Session

/-- The record at hand is one of the case and has the property, and so does the one in the store. -/
structure Both (id : Id) (J : CaseRecord → Prop) (s : Session σ) : Prop where
  stored : ∃ r, s.world.store.record? id = some r ∧ J r
  id : s.record.id = id
  record : J s.record

namespace Both

variable {id : Id} {J : CaseRecord → Prop} {s : Session σ}

theorem with_record (h : s.Both id J) {r : CaseRecord} (hid : r.id = s.record.id) (hr : J r) :
    Both id J { s with record := r } :=
  ⟨h.stored, hid.trans h.id, hr⟩

theorem adopted (h : s.Both id J) {r : CaseRecord}
    (hr : s.world.store.record? s.record.id = some r) : Both id J { s with record := r } := by
  obtain ⟨r', hr', hJ⟩ := h.stored
  have hid := Register.key_of_find? hr
  rw [h.id] at hr
  obtain rfl : r' = r := Option.some.inj (hr'.symm.trans hr)
  exact h.with_record hid hJ

theorem with_saved (h : s.Both id J) :
    Both id J { s with world := { s.world with store := s.world.store.saveRecord s.record } } where
  stored := ⟨s.record, by rw [← h.id]; exact Store.record?_saveRecord_self .., h.record⟩
  id := h.id
  record := h.record

/-- Whoever spares the case leaves the property alone, if it does not depend on how a case ends. -/
theorem spared (h : s.Both id J) {w : World σ} (hw : s.world.Spares id w)
    (hJ : ∀ {r} reason now later, J r → J (r.withdrawn reason now later)) :
    Both id J { s with world := w } := by
  obtain ⟨r, hr, hrecord⟩ := h.stored
  refine ⟨?_, h.id, h.record⟩
  rcases hw.record with hsame | ⟨r', reason, now, later, hr', -, hwithdrawn⟩
  · exact ⟨r, hsame.trans hr, hrecord⟩
  · obtain rfl : r' = r := Option.some.inj (hr'.symm.trans hr)
    exact ⟨_, hwithdrawn, hJ reason now later hrecord⟩

end Both

end Session

/-- What follows the past before the action does so afterwards. -/
def Action.Keeps (p : Past) (act : Action σ α) : Prop :=
  ∀ s : Session σ, s.Follows p → (act s).2.Follows p

namespace Engine

open Casework.Action

variable {p : Past} {e : Engine σ}

theorem upkeep_follows (hids : Function.Injective p.ids) (he : e.registry.Spares p.origin.id) :
    Upkeep e (fun _ => True) (Session.Follows p) where
  ticked h := h.spared ⟨rfl, Nat.le_refl _, .inl rfl⟩
  asked h _ := h.with_outage _
  found _ _ := trivial
  turned h horigin hexecutions _ := h.with_record (h.record.of_eq horigin hexecutions)
  directed h _ _ := h.with_record (h.record.of_eq rfl rfl)
  saved h := h.with_saved
  adopted h hr := h.with_record (h.of_record? (h.record.id ▸ hr))
  extended h hx _ := h.extended hids hx
  matured h hmatures := h.matured hmatures
  called _ h' hx := h'.spared (he hx _ _ _ _)
  settled h h' hbegun hid _ := h.settled h' hbegun hid

end Engine

end Casework
