import Casework.Proofs.Engine.Pointer
import Casework.Proofs.Task.Calls

/-!
# Published templates stay

Those who share a store save templates, install catalogs and work on cases, in any order, and some of
it fails half-way. A template that the store has once handed out as a published one is what it hands
out from then on; cases that are bound to it are started and resumed with it, and no other version
takes the place of the latest one but a later one.
-/

namespace Casework

variable {σ α β : Type}

/-! ### Versions -/

namespace Store

variable {s s' s'' : Store} {id : String} {version : Nat}

/-- The later store has what the earlier one had published. -/
structure Retains (s s' : Store) : Prop where
  published : s.KeepsPublished s'

theorem Retains.refl (s : Store) : s.Retains s := ⟨fun ht _ => ht⟩

theorem Retains.trans (h : s.Retains s') (h' : s'.Retains s'') : s.Retains s'' :=
  ⟨fun ht hpublished => h'.published (h.published ht hpublished) hpublished⟩

theorem Retains.of_templates (h : s'.templates = s.templates) : s.Retains s' :=
  ⟨KeepsPublished.of_templates h⟩

theorem mem_publishedVersions : version ∈ s.publishedVersions id ↔
    ∃ t, s.template? id version = some t ∧ t.isPublished := by
  simp only [publishedVersions, template?, List.mem_map, List.mem_filter, Bool.and_eq_true,
    beq_iff_eq, Register.find?_eq_some_iff, Prod.mk.injEq]
  constructor
  · rintro ⟨t, ⟨ht, hid, hpublished⟩, hversion⟩
    exact ⟨t, ⟨ht, hid, hversion⟩, hpublished⟩
  · rintro ⟨t, ⟨ht, hid, hversion⟩, hpublished⟩
    exact ⟨t, ⟨ht, hid, hpublished⟩, hversion⟩

/-- As long as what was published is there, the latest version is no earlier one. -/
theorem Retains.latestVersion? (h : s.Retains s')
    (hlatest : s.latestVersion? id = some version) :
    ∃ version', s'.latestVersion? id = some version' ∧ version ≤ version' := by
  obtain ⟨hmem, -⟩ := List.max?_eq_some_iff.1 hlatest
  obtain ⟨t, ht, hpublished⟩ := mem_publishedVersions.1 hmem
  have hkept : version ∈ s'.publishedVersions id :=
    mem_publishedVersions.2 ⟨t, h.published ht hpublished, hpublished⟩
  cases hlatest' : s'.latestVersion? id with
  | none =>
    rw [List.max?_eq_none_iff.1 hlatest'] at hkept
    cases hkept
  | some version' => exact ⟨version', rfl, (List.max?_eq_some_iff.1 hlatest').2 version hkept⟩

end Store

/-! ### Work that leaves templates alone -/

/-- Whatever the attempt comes to, the store has the same templates. -/
def Attempt.SparesTemplates (attempt : Attempt σ α) : Prop :=
  ∀ w, (attempt w).2.store.templates = w.store.templates

namespace Attempt.SparesTemplates

open Work

theorem bind {x : Attempt σ α} {f : α → Attempt σ β} (hx : SparesTemplates x)
    (hf : ∀ a, SparesTemplates (f a)) : SparesTemplates (x >>= f) := by
  intro w
  have hfirst := hx w
  rw [bind_apply]
  match hresult : x w with
  | (.ok a, w') =>
    rw [hresult] at hfirst
    exact (hf a w').trans hfirst
  | (.error _, w') =>
    rw [hresult] at hfirst
    exact hfirst

theorem pure (a : α) : SparesTemplates (Pure.pure a : Attempt σ α) := fun _ => rfl

theorem throw (err : EngineError) : SparesTemplates (MonadExcept.throw err : Attempt σ α) :=
  fun _ => rfl

theorem ask (call : StoreCall) (answer : Store → α) :
    SparesTemplates (Attempt.ask call answer : Attempt σ α) := by
  intro w
  obtain ⟨outage, -, hasked | hasked⟩ := Attempt.ask_cases call answer w <;> rw [hasked]

theorem now : SparesTemplates (Attempt.sure World.now : Attempt σ Time) := fun _ => rfl

theorem newId : SparesTemplates (Attempt.sure World.newId : Attempt σ Id) := fun _ => rfl

theorem saveRecord (r : CaseRecord) : SparesTemplates (Attempt.saveRecord r : Attempt σ Unit) :=
  (ask _ _).bind fun _ _ => rfl

theorem openCase_of_version (caseId templateId : String) (version : Nat)
    (data : Dictionary String) : SparesTemplates
      (Engine.openCase caseId templateId (some version) data : Attempt σ CaseRecord) := by
  refine bind (x := Attempt.template? templateId version) (ask _ _) fun t => ?_
  cases t with
  | none => exact throw _
  | some t => exact now.bind fun _ => newId.bind fun _ => (saveRecord _).bind fun _ => pure _

theorem openCase (caseId templateId : String) (version : Option Nat) (data : Dictionary String) :
    SparesTemplates (Engine.openCase caseId templateId version data : Attempt σ CaseRecord) := by
  cases version with
  | some version => exact openCase_of_version caseId templateId version data
  | none =>
    refine bind (x := Attempt.latestVersion? templateId) (ask _ _) fun latest => ?_
    cases latest with
    | none => exact throw _
    | some version => exact openCase_of_version caseId templateId version data

end Attempt.SparesTemplates

/-- Whether or not a call comes through, the store is as it was. -/
theorem World.store_reaches (call : StoreCall) (w : World σ) :
    (World.reaches call w).2.store = w.store := by
  rw [World.reaches]
  split
  · split
    · split <;> rfl
    · rfl
  · rfl

namespace Engine

open Work Casework.Action

variable {e : Engine σ}

theorem upkeep_retained (hkeeps : e.registry.KeepsPublished) (store : Store) :
    Upkeep e (fun _ => True) fun s => store.Retains s.world.store where
  ticked h := h
  asked h _ := h
  found _ _ := trivial
  turned h _ _ _ := h
  directed h _ _ := h
  saved h := h.trans (.of_templates rfl)
  adopted h _ := h
  extended h _ _ := h
  matured h _ := h
  called _ h' hx := h'.trans ⟨hkeeps hx _ _ _ _⟩
  settled _ h' _ _ _ := h'

/-- No command on a case changes a template that is published. -/
theorem retains_command (hkeeps : e.registry.KeepsPublished) (command : Command)
    (s : Session σ) : s.world.store.Retains (command.act e s).2.world.store :=
  ((upkeep_retained hkeeps s.world.store).upholds_command (.any _ _) command s (.refl _)).property

theorem retains_withRecord (hkeeps : e.registry.KeepsPublished) (command : Command)
    {store : Store} {r : CaseRecord} {w : World σ} (h : store.Retains w.store) :
    store.Retains (Attempt.withRecord r (command.act e) w).2.store := by
  rw [withRecord_world]
  exact h.trans (retains_command hkeeps command ⟨r, w⟩)

/-- A command on the record that the store has. -/
theorem retains_byId (hkeeps : e.registry.KeepsPublished) (command : Command) (id : Id)
    (w : World σ) : let work : Attempt σ CaseRecord := do
        Attempt.withRecord (← Attempt.record id) (command.act e)
      w.store.Retains (work w).2.store := by
  obtain ⟨outage, -, ⟨err, -, hfailed⟩ | ⟨r, -, hresult⟩⟩ := byId_cases id (command.act e) w
  · simp only [hfailed]
    exact .refl _
  · simp only [hresult]
    exact retains_withRecord hkeeps command (.refl _)

/-- No call from outside does. -/
theorem Call.retains (hkeeps : e.registry.KeepsPublished) (call : Call) (w : World σ) :
    w.store.Retains (call.run e w).2.store := by
  cases call with
  | openCase caseId templateId version data =>
    exact .of_templates (Attempt.SparesTemplates.openCase caseId templateId version data w)
  | start id => exact retains_byId hkeeps (.launch .start) id w
  | resume id => exact retains_byId hkeeps (.launch .resume) id w
  | cancel id reason => exact retains_byId hkeeps (.cancel reason) id w
  | complete taskId resolution =>
    obtain ⟨outage, -, ⟨err, -, hfailed⟩ | ⟨task, r, -, -, -, -, hlost | hgoesOn⟩⟩ :=
      completeTask_saves_cases (e := e) taskId resolution w
    · rw [Call.run, hfailed]
      exact .refl _
    · rw [Call.run, hlost]
      exact .of_templates rfl
    · rw [Call.run, hgoesOn]
      exact retains_withRecord hkeeps (.launch .resume) (.of_templates rfl)

/-! ### Everything that is done with a store -/

/-- What those do who share a store. -/
inductive Deed where
  | saveTemplate (t : Template)
  | install (c : Catalog)
  /-- A case is opened, or something is done with a case in the store. -/
  | call (request : Call)
  /-- Something is done with a case of which the caller has a record. -/
  | act (r : CaseRecord) (command : Command)
  /-- Calls to the store are going to be lost from now on, or no longer. -/
  | disturb (outage : Option Outage)

/-- The world behind a deed, whether it has succeeded or not. -/
def Deed.run (e : Engine σ) (w : World σ) : Deed → World σ
  | .saveTemplate t =>
    match w.store.saveTemplate t with
    | .ok store => { w with store }
    | .error _ => w
  | .install c => (c.install w).2
  | .call request => (request.run e w).2
  | .act r command => (command.act e ⟨r, w⟩).2.world
  | .disturb outage => { w with outage }

theorem Deed.retains (hkeeps : e.registry.KeepsPublished) (deed : Deed) (w : World σ) :
    w.store.Retains (deed.run e w).store := by
  cases deed with
  | saveTemplate t =>
    rw [Deed.run]
    cases hsave : w.store.saveTemplate t with
    | ok store => exact ⟨Store.saveTemplate_keepsPublished hsave⟩
    | error err => exact .refl _
  | install c => exact ⟨(World.Furnishes.install c w).published⟩
  | call request => exact request.retains hkeeps w
  | act r command => exact retains_command hkeeps command ⟨r, w⟩
  | disturb outage => exact .refl _

theorem retains_deeds (hkeeps : e.registry.KeepsPublished) (deeds : List Deed)
    (w : World σ) : w.store.Retains (deeds.foldl (Deed.run e) w).store := by
  induction deeds generalizing w with
  | nil => exact .refl _
  | cons deed deeds ih => exact (deed.retains hkeeps w).trans (ih _)

/-! ### Cases that are bound to a template -/

/-- The template is what the case goes on with, or the case fails because it is not valid. -/
def goOnWith (t : Template) : Action σ Template :=
  match t.validate with
  | .error err => Action.failWith (.invalidTemplate err)
  | .ok () => return t

/-- A case whose template is in the store goes on with that template, if the call comes through. -/
theorem template_eq {s : Session σ} {t : Template}
    (ht : s.world.store.template? s.record.templateId s.record.templateVersion = some t) :
    template s = (do
      Action.ofAttempt (Attempt.ask .loadTemplate fun _ => ())
      goOnWith t : Action σ Template) s := by
  rw [template, bind_of_ok (record_apply s)]
  simp only [Attempt.template?]
  obtain ⟨⟨through, w⟩, hreaches⟩ : ∃ reached, World.reaches .loadTemplate s.world = reached :=
    ⟨_, rfl⟩
  have hstore := World.store_reaches .loadTemplate s.world
  rw [hreaches] at hstore
  change w.store = s.world.store at hstore
  cases through with
  | true =>
    have hasked : Attempt.ask .loadTemplate
        (·.template? s.record.templateId s.record.templateVersion) s.world = (.ok (some t), w) := by
      simp only [Attempt.ask, hreaches, hstore, ht]
    have hplain : Attempt.ask .loadTemplate (fun _ => ()) s.world = (.ok (), w) := by
      simp only [Attempt.ask, hreaches]
    rw [bind_of_ok (ofAttempt_of_ok hasked), bind_of_ok (ofAttempt_of_ok hplain)]
    rfl
  | false =>
    have hasked : Attempt.ask .loadTemplate
        (·.template? s.record.templateId s.record.templateVersion) s.world =
          (.error (.callLost .loadTemplate), w) := by
      simp only [Attempt.ask, hreaches]
    have hplain : Attempt.ask .loadTemplate (fun _ => ()) s.world =
        (.error (.callLost .loadTemplate), w) := by
      simp only [Attempt.ask, hreaches]
    rw [bind_of_error (ofAttempt_of_error hasked), bind_of_error (ofAttempt_of_error hplain)]

/-- Whatever is done with a store, and whatever of it fails: a template that it has published is
there for good; the cases that are bound to it, when they are started or resumed, go on with this very
template; and the latest version of a template does not go back, nor does it get lost. -/
theorem published_stays (hkeeps : e.registry.KeepsPublished) (w : World σ) (deeds : List Deed) :
    let later := deeds.foldl (Deed.run e) w
    (∀ id version t, w.store.template? id version = some t → t.isPublished →
      later.store.template? id version = some t ∧
        ∀ s : Session σ, s.world.store.templates = later.store.templates →
          s.record.templateId = id → s.record.templateVersion = version →
          template s = (do
            Action.ofAttempt (Attempt.ask .loadTemplate fun _ => ())
            goOnWith t : Action σ Template) s) ∧
      ∀ id version, w.store.latestVersion? id = some version →
        ∃ version', later.store.latestVersion? id = some version' ∧ version ≤ version' := by
  have hretains := retains_deeds hkeeps deeds w
  refine ⟨?_, fun id version => hretains.latestVersion?⟩
  intro id version t ht hpublished
  have hkept := hretains.published ht hpublished
  refine ⟨hkept, ?_⟩
  rintro s htemplates rfl rfl
  refine template_eq ?_
  rw [Store.template?, htemplates]
  exact hkept

/-- Somebody tries to save the notice with another name and installs a catalog with a draft of it; a
case is opened, started and cancelled. -/
def noticeDeeds : List Deed := [
  .saveTemplate { Notice.template with name := "Another" },
  .install { Catalog.empty with templates := [{ Notice.template with publishedAt := none }] },
  .call (.openCase "case" "notice" (some 1) .empty),
  .call (.start Notice.opened.id),
  .saveTemplate { Notice.template with version := 2, publishedAt := none },
  .call (.cancel Notice.opened.id none)]

open Notice in
theorem published_stays_notice :
    let later := noticeDeeds.foldl (Deed.run engine) world
    later.store.template? "notice" 1 = some Notice.template ∧
      ∃ version, later.store.latestVersion? "notice" = some version ∧ 1 ≤ version := by
  obtain ⟨hkept, hlatest⟩ :=
    published_stays (e := engine) Registry.builtIn_discreet.keepsPublished world noticeDeeds
  exact ⟨(hkept "notice" 1 Notice.template rfl rfl).1, hlatest "notice" 1 rfl⟩

end Engine

end Casework
