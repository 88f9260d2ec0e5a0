import Casework.Proofs.Catalog.Install
import Casework.Proofs.Engine.Lifetime
import Casework.Proofs.Engine.Walk

/-!
# The step to go on with is one of the template's

A template is validated when it is published, and from then on the store does not let it change. So
the template that a case finds on record is always the one it was opened on, and each edge that a run
follows in it leads to a step or past the end. The step that is saved for the case to go on with is
one of these, and the case never fails for the lack of it.
-/

namespace Casework

variable {σ : Type}

/-- The case is bound to the template and goes on with one of its steps, or comes to its end. -/
structure CaseRecord.PointsInto (t : Template) (r : CaseRecord) : Prop where
  templateId : r.templateId = t.id
  templateVersion : r.templateVersion = t.version
  currentStep : t.Knows r.currentStep

theorem CaseRecord.PointsInto.of_eq {t : Template} {r r' : CaseRecord} (h : r.PointsInto t)
    (horigin : r'.origin = r.origin) (hcurrent : r'.currentStep = r.currentStep) :
    r'.PointsInto t where
  templateId := (templateId_eq_of_origin horigin).trans h.templateId
  templateVersion := (templateVersion_eq_of_origin horigin).trans h.templateVersion
  currentStep := hcurrent ▸ h.currentStep

/-- Whoever saves templates through the store keeps those that are published. -/
def Executor.KeepsPublished (x : Executor σ) : Prop :=
  ∀ step execution record (w : World σ), w.store.KeepsPublished (x step execution record w).2.store

def Registry.KeepsPublished (reg : Registry σ) : Prop :=
  ∀ {type x}, reg.executor? type = some x → Executor.KeepsPublished x

theorem Registry.Discreet.keepsPublished {reg : Registry σ} (h : reg.Discreet) :
    reg.KeepsPublished :=
  fun hx step execution record w =>
    Store.KeepsPublished.of_templates ((h hx).templates step execution record w)

/-- The record at hand and the one in the store point into the template, which is in the store. -/
structure Session.Pointed (id : Id) (t : Template) (s : Session σ) : Prop
    extends s.Both id (CaseRecord.PointsInto t) where
  template : s.world.store.template? t.id t.version = some t

namespace Session.Pointed

variable {id : Id} {t : Template} {s : Session σ}

theorem of_record {w : World σ} {r : CaseRecord} (hr : w.store.record? id = some r)
    (hpoints : r.PointsInto t) (ht : w.store.template? t.id t.version = some t) :
    Pointed id t ⟨r, w⟩ :=
  ⟨⟨⟨r, hr, hpoints⟩, Register.key_of_find? hr, hpoints⟩, ht⟩

theorem with_record (h : s.Pointed id t) {r : CaseRecord} (hid : r.id = s.record.id)
    (hr : r.PointsInto t) : Pointed id t { s with record := r } :=
  ⟨h.toBoth.with_record hid hr, h.template⟩

theorem spared (h : s.Pointed id t) {w : World σ} (hw : s.world.Spares id w)
    (ht : w.store.template? t.id t.version = some t) : Pointed id t { s with world := w } :=
  ⟨h.toBoth.spared hw fun _ _ _ hr => hr.of_eq rfl rfl, ht⟩

/-- The template on record is the one in the store. -/
theorem template?_eq (h : s.Pointed id t) :
    s.world.store.template? s.record.templateId s.record.templateVersion = some t := by
  rw [h.record.templateId, h.record.templateVersion]
  exact h.template

end Session.Pointed

namespace Engine

open Casework.Action

variable {e : Engine σ} {id : Id} {t : Template} {w w' : World σ}

theorem upkeep_pointed (he : e.registry.Spares id) (hkeeps : e.registry.KeepsPublished)
    (hpublished : t.isPublished) : Upkeep e (· = t) (Session.Pointed id t) where
  ticked h := h.spared ⟨rfl, Nat.le_refl _, .inl rfl⟩ h.template
  asked h _ := h.spared ⟨rfl, Nat.le_refl _, .inl rfl⟩ h.template
  found h hfound := Option.some.inj (hfound.symm.trans h.template?_eq)
  turned h horigin _ hcurrent :=
    h.with_record (CaseRecord.id_eq_of_origin horigin) (h.record.of_eq horigin hcurrent)
  directed h ht hnext := h.with_record rfl ⟨h.record.templateId, h.record.templateVersion, ht ▸ hnext⟩
  saved h := ⟨h.toBoth.with_saved, h.template⟩
  adopted h hr := ⟨h.toBoth.adopted hr, h.template⟩
  extended h _ _ := ⟨⟨h.stored, h.id, h.record.of_eq rfl rfl⟩, h.template⟩
  matured h _ := h.with_record rfl (h.record.of_eq rfl rfl)
  called _ h' hx := h'.spared (he hx _ _ _ _) (hkeeps hx _ _ _ _ h'.template hpublished)
  settled _ h' _ _ _ := h'.with_record rfl (h'.record.of_eq rfl rfl)

theorem permits_pointed (hvalid : t.validate = .ok ()) :
    EngineError.Permits (σ := σ) (· = t) (Session.Pointed id t) fun err =>
      err.blamesTemplate = false where
  refusal {err} hrefusal := by cases err <;> first | rfl | cases hrefusal
  lost _ := rfl
  noExecutor _ _ := rfl
  tooManyVisits _ := rfl
  missing h hmissing := nomatch hmissing.symm.trans h.template?_eq
  invalid ht hinvalid := by
    obtain rfl := ht
    exact nomatch hinvalid.symm.trans hvalid
  dangling h ht hcurrent hunknown := by
    obtain rfl := ht
    exact absurd (hcurrent ▸ h.record.currentStep) hunknown

/-! ### Operations and what comes in between -/

/-- The stored record points into the template, which is in the store. -/
def Standing (id : Id) (t : Template) (w : World σ) : Prop :=
  ∃ r, w.store.record? id = some r ∧ r.PointsInto t ∧ w.store.template? t.id t.version = some t

theorem Standing.of_pointed {s : Session σ} (h : s.Pointed id t) : Standing id t s.world := by
  obtain ⟨r, hr, hpoints⟩ := h.stored
  exact ⟨r, hr, hpoints, h.template⟩

theorem Standing.spared (h : Standing id t w) (hw : w.Spares id w')
    (ht : w'.store.template? t.id t.version = some t) : Standing id t w' := by
  obtain ⟨r, hr, hpoints, htemplate⟩ := h
  exact .of_pointed ((Session.Pointed.of_record hr hpoints htemplate).spared hw ht)

theorem Operation.Readies.pointsInto {op : Operation} {r r' : CaseRecord} (h : op.Readies r r')
    (hr : r.PointsInto t) : r'.PointsInto t := by
  cases op with
  | complete taskId resolution =>
    obtain ⟨-, task, -, rfl⟩ := h
    exact hr.of_eq rfl rfl
  | start | resume | cancel =>
    obtain rfl : r' = r := h
    exact hr

/-- An operation leaves the case pointing into its template, and does not blame the template. -/
theorem Standing.operate (h : Standing id t w) (he : e.registry.Spares id)
    (hkeeps : e.registry.KeepsPublished) (hpublished : t.isPublished) (hvalid : t.validate = .ok ())
    {op : Operation} (hop : op.Concerns id w) :
    Standing id t (op.run e id w).2 ∧
      ∀ err, (op.run e id w).1 = .error err → err.blamesTemplate = false := by
  obtain ⟨r, hr, hpoints, htemplate⟩ := h
  rcases op.fails_or_runs (e := e) hop with hfails | ⟨r', s, command, hruns⟩
  · have htemplate' : (op.run e id w).2.store.template? t.id t.version = some t := by
      rw [Store.template?, hfails.templates]
      exact htemplate
    refine ⟨Standing.spared ⟨r, hr, hpoints, htemplate⟩ hfails.spares htemplate', fun err herr => ?_⟩
    obtain ⟨err', herr', hkind⟩ := hfails.error
    obtain rfl := Except.error.inj (herr.symm.trans herr')
    rcases hkind with hdenies | hrefuses | ⟨call, rfl⟩
    · cases err <;> first | rfl | cases hdenies
    · cases err <;> first | rfl | cases hrefuses
    · rfl
  · obtain rfl : r' = r := Option.some.inj (hruns.stored.symm.trans hr)
    have htemplate' : s.world.store.template? t.id t.version = some t := by
      rw [Store.template?, hruns.templates]
      exact htemplate
    have hnow := Session.Pointed.of_record hruns.saved (hruns.readied.pointsInto hpoints) htemplate'
    have hsound := (upkeep_pointed he hkeeps hpublished).upholds_command (permits_pointed hvalid)
      command s hnow
    refine ⟨?_, fun err herr => ?_⟩
    · rw [hruns.result]
      exact .of_pointed hsound.property
    · rw [hruns.run] at herr
      exact hsound.permitted (withRecord_error herr)

/-- The worlds that a case that has just been opened comes to see. Templates can be saved and catalogs
installed, and there may be other work that spares the case and the templates that are published. An
operation can lose any of its calls to the store. If it loses the one with which it saves for the
second time, or for the third and so on, the record in the store is the one that it has saved before,
so each record that it saves is seen. -/
inductive Sees (e : Engine σ) (id : Id) (w₀ : World σ) : World σ → Prop
  | opened : Sees e id w₀ w₀
  | operate {w : World σ} (h : Sees e id w₀ w) (op : Operation) (hop : op.Concerns id w) :
      Sees e id w₀ (op.run e id w).2
  | outage {w : World σ} (h : Sees e id w₀ w) (outage : Option Outage) :
      Sees e id w₀ { w with outage }
  | saveTemplate {w : World σ} (h : Sees e id w₀ w) {t : Template} {store : Store}
      (hsave : w.store.saveTemplate t = .ok store) : Sees e id w₀ { w with store }
  | install {w : World σ} (h : Sees e id w₀ w) (c : Catalog) : Sees e id w₀ (c.install w).2
  | meanwhile {w w' : World σ} (h : Sees e id w₀ w) (hw : w.Spares id w')
      (hkeeps : w.store.KeepsPublished w'.store) : Sees e id w₀ w'

theorem Standing.furnished (h : Standing id t w) (hpublished : t.isPublished)
    (hw : w.Furnishes w') : Standing id t w' := by
  obtain ⟨r, hr, hpoints, htemplate⟩ := h
  refine ⟨r, ?_, hpoints, hw.published htemplate hpublished⟩
  rw [Store.record?, hw.records]
  exact hr

theorem Sees.standing {w₀ : World σ} (h : e.Sees id w₀ w) (hstanding : Standing id t w₀)
    (he : e.registry.Spares id) (hkeeps : e.registry.KeepsPublished) (hpublished : t.isPublished)
    (hvalid : t.validate = .ok ()) : Standing id t w := by
  induction h with
  | opened => exact hstanding
  | operate _ op hop ih => exact (ih.operate he hkeeps hpublished hvalid hop).1
  | outage _ _ ih => exact ih
  | saveTemplate _ hsave ih => exact ih.furnished hpublished (.saveTemplate hsave)
  | install _ c ih => exact ih.furnished hpublished (.install c _)
  | meanwhile _ hw hkept ih =>
    obtain ⟨r, hr, hpoints, htemplate⟩ := ih
    exact Standing.spared ⟨r, hr, hpoints, htemplate⟩ hw (hkept htemplate hpublished)

/-- A case on a published, valid template goes on with one of its steps or comes to its end, whatever
happens: its record never names any other step, and no operation on it blames the template. -/
theorem currentStep_known {caseId templateId : String} {version : Option Nat}
    {data : Dictionary String} {w₀ w₁ : World σ} {r₀ : CaseRecord}
    (hopen : openCase caseId templateId version data w₀ = (.ok r₀, w₁))
    (htemplate : w₁.store.template? r₀.templateId r₀.templateVersion = some t)
    (hpublished : t.isPublished) (hvalid : t.validate = .ok ()) (he : e.registry.Spares r₀.id)
    (hkeeps : e.registry.KeepsPublished) (hsees : e.Sees r₀.id w₁ w) :
    (∃ r, w.store.record? r₀.id = some r ∧ t.Knows r.currentStep) ∧
      ∀ op : Operation, op.Concerns r₀.id w → ∀ err,
        (op.run e r₀.id w).1 = .error err → err.blamesTemplate = false := by
  obtain ⟨hstored, _, _, _, hnew⟩ := openCase_new hopen
  have hkey := Store.key_of_template? htemplate
  have hstanding : Standing r₀.id t w₁ := by
    refine ⟨r₀, hstored, ⟨hkey.1.symm, hkey.2.symm, ?_⟩, ?_⟩
    · rw [hnew]
      exact t.knows_none
    · rw [hkey.1, hkey.2]
      exact htemplate
  have hnow := hsees.standing hstanding he hkeeps hpublished hvalid
  refine ⟨?_, fun op hop => (hnow.operate he hkeeps hpublished hvalid hop).2⟩
  obtain ⟨r, hr, hpoints, -⟩ := hnow
  exact ⟨r, hr, hpoints.currentStep⟩

open Notice in
theorem currentStep_known_notice :
    (∃ r, worldApproved.store.record? opened.id = some r ∧ Notice.template.Knows r.currentStep) ∧
      ∀ op : Operation, op.Concerns opened.id worldApproved → ∀ err,
        (op.run engine opened.id worldApproved).1 = .error err → err.blamesTemplate = false := by
  have hopen : openCase "case" "notice" none .empty world = (.ok opened, worldOpened) := rfl
  have hstarted : engine.Sees opened.id worldOpened worldStarted :=
    Sees.opened.operate .start trivial
  have happroved : engine.Sees opened.id worldOpened worldApproved :=
    hstarted.operate (.complete ⟨3⟩ ⟨false, none, none⟩) fun _ htask => recordId_of_task htask
  exact currentStep_known hopen rfl rfl rfl (Registry.builtIn_spares _)
    Registry.builtIn_discreet.keepsPublished happroved

end Engine

end Casework
