import Casework.Catalog.Install
import Casework.Catalog.Validate
import Casework.Proofs.Engine.Session
import Casework.Proofs.Except
import Casework.Proofs.Register

/-!
# What a valid catalog puts into a store

Validating a catalog shows that its templates are valid, that its formulas can be read and that its
steps name rule sets and formulas of its own. In a store that held nothing these are what there is
once the catalog is installed. In any store the templates that were published already stay as they
are.
-/

namespace Casework

variable {σ : Type}

def Template.stamped (t : Template) (stamp : Option Time) : Template :=
  { t with publishedAt := stamp }

namespace Catalog

/-! ### Validation -/

/-- What validating a catalog finds out, apart from ids that stand twice. -/
structure Checked (c : Catalog) : Prop where
  templates : ∀ t ∈ c.templates, t.validate = .ok ()
  formulas : ∀ f ∈ c.formulas, ∃ names, Formula.variablesOf f.expression = .ok names
  steps : ∀ t ∈ c.templates, ∀ s ∈ t.steps, c.checkStep t s = .ok ()

/-- Values pass one by one if no key stands twice and each value passes by itself. -/
theorem checkEach_eq_ok_iff {α κ : Type} [DecidableEq κ] {key : α → κ} {duplicate : α → CatalogError}
    {check : α → Except CatalogError Unit} {as : List α} {seen : List κ} :
    checkEach key duplicate check seen as = .ok () ↔
      (as.map key).Nodup ∧ ∀ a ∈ as, key a ∉ seen ∧ check a = .ok () := by
  induction as generalizing seen with
  | nil => simp [checkEach]
  | cons a as ih =>
    rw [checkEach]
    by_cases hseen : key a ∈ seen
    · rw [if_pos hseen]
      constructor
      · intro h
        cases h
      · rintro ⟨-, h⟩
        exact absurd hseen (h a List.mem_cons_self).1
    · rw [if_neg hseen]
      show (check a >>= fun _ => checkEach key duplicate check (key a :: seen) as) = _ ↔ _
      rw [bind_eq_ok, List.map_cons, List.nodup_cons, List.forall_mem_cons]
      simp only [ih, List.mem_cons, not_or, List.mem_map]
      grind

theorem check_of_checkEach {α κ : Type} [DecidableEq κ] {key : α → κ} {duplicate : α → CatalogError}
    {check : α → Except CatalogError Unit} {as : List α} {seen : List κ}
    (h : checkEach key duplicate check seen as = .ok ()) : ∀ a ∈ as, check a = .ok () :=
  fun a ha => ((checkEach_eq_ok_iff.1 h).2 a ha).2

theorem validate_of_checkTemplate {t : Template} (h : checkTemplate t = .ok ()) :
    t.validate = .ok () :=
  mapError_eq_ok.1 h

theorem variablesOf_of_checkFormula {f : Formula} (h : checkFormula f = .ok ()) :
    ∃ names, Formula.variablesOf f.expression = .ok names := by
  rw [checkFormula] at h
  cases hf : Formula.variablesOf f.expression with
  | error e =>
    rw [hf] at h
    cases h
  | ok names => exact ⟨names, rfl⟩

theorem checked_of_validate {c : Catalog} (h : c.validate = .ok ()) : c.Checked := by
  rw [validate, bind_eq_ok] at h
  obtain ⟨_, htemplates, h⟩ := h
  obtain ⟨_, _, h⟩ := bind_eq_ok.1 h
  obtain ⟨_, hformulas, hsteps⟩ := bind_eq_ok.1 h
  refine ⟨?_, ?_, ?_⟩
  · intro t ht
    exact validate_of_checkTemplate (check_of_checkEach htemplates t ht)
  · intro f hf
    exact variablesOf_of_checkFormula (check_of_checkEach hformulas f hf)
  · intro t ht
    exact forM_eq_ok.1 (forM_eq_ok.1 hsteps t ht)

/-- A step that decides names a rule set of the catalog. -/
theorem decisionConfig_of_checkStep {c : Catalog} {t : Template} {s : Step}
    (htype : s.type = .decisionTable) (h : c.checkStep t s = .ok ()) :
    ∃ config : DecisionConfig, StepConfig.decode s = .ok config ∧
      (c.ruleSet? config.ruleSetId).isSome := by
  rw [checkStep, htype] at h
  obtain ⟨config, hconfig, h⟩ := bind_eq_ok.1 h
  exact ⟨config, mapError_eq_ok.1 hconfig, isSome_of_guard h⟩

/-- A step that calculates names a formula of the catalog. -/
theorem calculationConfig_of_checkStep {c : Catalog} {t : Template} {s : Step}
    (htype : s.type = .calculation) (h : c.checkStep t s = .ok ()) :
    ∃ config : CalculationConfig, StepConfig.decode s = .ok config ∧
      (c.formula? config.formulaId).isSome := by
  rw [checkStep, htype] at h
  obtain ⟨config, hconfig, h⟩ := bind_eq_ok.1 h
  exact ⟨config, mapError_eq_ok.1 hconfig, isSome_of_guard h⟩

/-! ### Templates on their way into the store -/

/-- The template is one of the catalog, with a stamp. -/
def Stamps (c : Catalog) (t : Template) : Prop :=
  ∃ t' ∈ c.templates, ∃ stamp, t = t'.stamped stamp

theorem Stamps.validate {c : Catalog} {t : Template} (h : c.Stamps t) (hc : c.Checked) :
    t.validate = .ok () := by
  obtain ⟨t', ht', stamp, rfl⟩ := h
  exact hc.templates t' ht'

theorem Stamps.checkStep {c : Catalog} {t : Template} (h : c.Stamps t) (hc : c.Checked) {s : Step}
    (hs : s ∈ t.steps) : ∃ t', c.checkStep t' s = .ok () := by
  obtain ⟨t', ht', stamp, rfl⟩ := h
  exact ⟨t', hc.steps t' ht' s hs⟩

/-- A store that held nothing, with templates of the catalog in it. -/
structure Filling (c : Catalog) (w : World σ) : Prop where
  templates : ∀ {id version t}, w.store.template? id version = some t → c.Stamps t
  ruleSets : w.store.ruleSets = .empty
  formulas : w.store.formulas = .empty
  outage : w.outage = none

theorem Filling.of_empty {c : Catalog} {w : World σ} (h : w.store = .empty)
    (hcalm : w.outage = none) : c.Filling w := by
  refine ⟨?_, by rw [h]; rfl, by rw [h]; rfl, hcalm⟩
  intro id version t ht
  rw [h] at ht
  cases ht

theorem publish_apply {t : Template} {w : World σ} (ht : t.validate = .ok ())
    (hfree : (w.store.template? t.id t.version).any (·.isPublished) = false) :
    World.publish t w = (.ok (), { w with
      readings := w.readings + 1
      store := { w.store with
        templates := w.store.templates.insert
          (t.stamped (t.publishedAt.or (some (w.clock w.readings)))) } }) := by
  let published : Template := t.stamped (t.publishedAt.or (some (w.clock w.readings)))
  have hpublish : t.publish (w.clock w.readings) = .ok published := by
    rw [Template.publish, ht]
    rfl
  have hsave : w.store.saveTemplate published =
      .ok { w.store with templates := w.store.templates.insert published } := by
    rw [Store.saveTemplate]
    refine if_neg ?_
    show ¬ (w.store.template? t.id t.version).any _ = true
    cases hold : w.store.template? t.id t.version with
    | none => exact Bool.false_ne_true
    | some old =>
      rw [hold] at hfree
      have hdraft : old.isPublished = false := hfree
      simp only [Option.any_some, hdraft, Bool.false_and, Bool.false_eq_true, not_false_eq_true]
  rw [World.publish, World.now]
  simp only [hpublish, hsave]
  rfl

/-- A template that is published already is left as it is. -/
theorem installTemplate_of_published {t : Template} {w : World σ}
    (h : (w.store.template? t.id t.version).any (·.isPublished)) :
    Catalog.installTemplate t w = (.ok (), w) := by
  have hget : (get : ExceptT InstallError (StateM (World σ)) (World σ)) w = (.ok w, w) := rfl
  rw [Catalog.installTemplate, Work.bind_of_ok hget, if_pos h]
  rfl

theorem installTemplate_of_unpublished {t : Template} {w : World σ}
    (h : ¬ (w.store.template? t.id t.version).any (·.isPublished)) :
    Catalog.installTemplate t w = World.publish t w := by
  have hget : (get : ExceptT InstallError (StateM (World σ)) (World σ)) w = (.ok w, w) := rfl
  rw [Catalog.installTemplate, Work.bind_of_ok hget, if_neg h]

theorem Filling.installTemplate {c : Catalog} {w : World σ} (h : c.Filling w) (hc : c.Checked)
    {t : Template} (ht : t ∈ c.templates) :
    ∃ w', Catalog.installTemplate t w = (.ok (), w') ∧ c.Filling w' := by
  by_cases hstored : (w.store.template? t.id t.version).any (·.isPublished)
  · exact ⟨w, installTemplate_of_published hstored, h⟩
  · have hpublish := publish_apply (hc.templates t ht) (by simpa using hstored)
    refine ⟨_, (installTemplate_of_unpublished hstored).trans hpublish, ?_, h.ruleSets,
      h.formulas, h.outage⟩
    intro id version t' ht'
    have hfind := (Register.find?_insert w.store.templates _ (id, version)).symm.trans ht'
    split at hfind
    · exact ⟨t, ht, _, (Option.some.inj hfind).symm⟩
    · exact h.templates hfind

theorem Filling.installTemplates {c : Catalog} {w : World σ} (h : c.Filling w) (hc : c.Checked)
    {ts : List Template} (hts : ∀ t ∈ ts, t ∈ c.templates) :
    ∃ w', ts.forM Catalog.installTemplate w = (.ok (), w') ∧ c.Filling w' := by
  induction ts generalizing w with
  | nil => exact ⟨w, rfl, h⟩
  | cons t ts ih =>
    obtain ⟨w', hinstall, h'⟩ := h.installTemplate hc (hts t List.mem_cons_self)
    obtain ⟨w'', hothers, h''⟩ := ih h' (fun t' ht' => hts t' (List.mem_cons_of_mem t ht'))
    refine ⟨w'', ?_, h''⟩
    rw [← hothers]
    exact Work.bind_of_ok hinstall

/-! ### Rule sets and formulas -/

theorem foldl_saveRuleSet (rs : List RuleSet) (s : Store) : rs.foldl Store.saveRuleSet s =
    { s with ruleSets := rs.foldl Register.insert s.ruleSets } := by
  induction rs generalizing s with
  | nil => rfl
  | cons r rs ih => exact ih (s.saveRuleSet r)

theorem foldl_saveFormula (fs : List Formula) (s : Store) : fs.foldl Store.saveFormula s =
    { s with formulas := fs.foldl Register.insert s.formulas } := by
  induction fs generalizing s with
  | nil => rfl
  | cons f fs ih => exact ih (s.saveFormula f)

/-- The world with the rule sets and formulas of the catalog in its store. -/
def stock (c : Catalog) (w : World σ) : World σ :=
  { w with
    store := { w.store with
      ruleSets := c.ruleSets.foldl Register.insert w.store.ruleSets
      formulas := c.formulas.foldl Register.insert w.store.formulas } }

/-- The rule sets and formulas of the catalog are at hand, and no other formulas are. -/
structure Provided (c : Catalog) (u : Surroundings σ) : Prop where
  ruleSets : ∀ {id}, (c.ruleSet? id).isSome → (u.ruleSets.find? id).isSome
  formulas : ∀ {id}, (c.formula? id).isSome → (u.formulas.find? id).isSome
  ofCatalog : ∀ {id f}, u.formulas.find? id = some f → f ∈ c.formulas

theorem Provided.aside {c : Catalog} {u u' : Surroundings σ} (h : c.Provided u)
    (haside : u.Aside u') : c.Provided u' := by
  obtain ⟨tasks, memory, rfl⟩ := haside
  exact ⟨h.ruleSets, h.formulas, h.ofCatalog⟩

theorem Filling.provided {c : Catalog} {w : World σ} (h : c.Filling w) :
    c.Provided (c.stock w).surroundings := by
  refine ⟨?_, ?_, ?_⟩
  · intro id hid
    obtain ⟨r, hr, hkey⟩ := List.find?_isSome.1 hid
    refine Register.isSome_find?_foldl_insert (.inl ?_)
    exact List.mem_map.2 ⟨r, hr, by simpa using hkey⟩
  · intro id hid
    obtain ⟨f, hf, hkey⟩ := List.find?_isSome.1 hid
    refine Register.isSome_find?_foldl_insert (.inl ?_)
    exact List.mem_map.2 ⟨f, hf, by simpa using hkey⟩
  · intro id f hf
    rcases Register.mem_of_find?_foldl_insert hf with hmem | hold
    · exact hmem
    · rw [h.formulas] at hold
      cases hold

theorem install_of_templates {c : Catalog} {w w' : World σ}
    (h : c.templates.forM Catalog.installTemplate w = (.ok (), w')) :
    c.install w = (.ok (), c.stock w') := by
  have hstore := foldl_saveFormula c.formulas (c.ruleSets.foldl Store.saveRuleSet w'.store)
  rw [foldl_saveRuleSet] at hstore
  rw [install, Work.bind_of_ok h]
  show (Except.ok (), { w' with store := _ }) = _
  rw [foldl_saveRuleSet, hstore]
  rfl

/-- A valid catalog can be installed, and then its templates, rule sets and formulas are there. -/
theorem install_apply {c : Catalog} (hc : c.Checked) {w : World σ} (hempty : w.store = .empty)
    (hcalm : w.outage = none) : ∃ w', c.install w = (.ok (), w') ∧ w'.outage = none ∧
      c.Provided w'.surroundings ∧
      ∀ {id version t}, w'.store.template? id version = some t → c.Stamps t := by
  obtain ⟨w', hinstall, h⟩ :=
    (Filling.of_empty hempty hcalm).installTemplates hc fun t ht => ht
  exact ⟨c.stock w', install_of_templates hinstall, h.outage, h.provided, h.templates⟩

end Catalog

/-! ### What is there already -/

/-- Each template that was published is still there. -/
def Store.KeepsPublished (s s' : Store) : Prop :=
  ∀ {id version t}, s.template? id version = some t → t.isPublished →
    s'.template? id version = some t

theorem Store.KeepsPublished.of_templates {s s' : Store} (h : s'.templates = s.templates) :
    s.KeepsPublished s' := by
  intro id version t ht _
  rw [template?, h]
  exact ht

/-- A template comes into the store only if it changes none that is published. -/
theorem Store.saveTemplate_keepsPublished {s s' : Store} {t : Template}
    (h : s.saveTemplate t = .ok s') : s.KeepsPublished s' := by
  intro id version old hold hpublished
  rw [saveTemplate] at h
  split at h
  · exact nomatch h
  rename_i hfree
  obtain rfl := Except.ok.inj h
  refine (Register.find?_insert s.templates t (id, version)).trans ?_
  by_cases hkey : (t.id, t.version) = (id, version)
  · obtain ⟨rfl, rfl⟩ := Prod.mk.inj hkey
    obtain rfl : old = t := by simpa [hold, hpublished] using hfree
    rw [if_pos rfl]
  · rw [if_neg hkey]
    exact hold

/-- The later world has other templates, rule sets and formulas at most, and what was published is
still there. -/
structure World.Furnishes (w w' : World σ) : Prop where
  records : w'.store.records = w.store.records
  ids : w'.ids = w.ids
  drawn : w'.drawn = w.drawn
  published : w.store.KeepsPublished w'.store

namespace World.Furnishes

variable {w w' w'' : World σ}

theorem refl (w : World σ) : w.Furnishes w := ⟨rfl, rfl, rfl, fun ht _ => ht⟩

theorem trans (h : w.Furnishes w') (h' : w'.Furnishes w'') : w.Furnishes w'' where
  records := h'.records.trans h.records
  ids := h'.ids.trans h.ids
  drawn := h'.drawn.trans h.drawn
  published ht hpublished := h'.published (h.published ht hpublished) hpublished

theorem saveTemplate {t : Template} {store : Store} (h : w.store.saveTemplate t = .ok store) :
    w.Furnishes { w with store } := by
  refine ⟨?_, rfl, rfl, Store.saveTemplate_keepsPublished h⟩
  rw [Store.saveTemplate] at h
  split at h
  · exact nomatch h
  · obtain rfl := Except.ok.inj h
    rfl

theorem publish (t : Template) (w : World σ) : w.Furnishes (World.publish t w).2 := by
  let ticked : World σ := { w with readings := w.readings + 1 }
  have hticked : w.Furnishes ticked := ⟨rfl, rfl, rfl, fun ht _ => ht⟩
  simp only [World.publish, World.now]
  cases t.publish (w.clock w.readings) with
  | error err => exact hticked
  | ok published =>
    simp only
    cases hsave : w.store.saveTemplate published with
    | error err => exact hticked
    | ok store => exact hticked.trans (.saveTemplate (w := ticked) hsave)

theorem installTemplate (t : Template) (w : World σ) :
    w.Furnishes (Catalog.installTemplate t w).2 := by
  by_cases hstored : (w.store.template? t.id t.version).any (·.isPublished)
  · rw [Catalog.installTemplate_of_published hstored]
    exact .refl w
  · rw [Catalog.installTemplate_of_unpublished hstored]
    exact .publish t w

theorem installTemplates (ts : List Template) (w : World σ) :
    w.Furnishes (ts.forM Catalog.installTemplate w).2 := by
  induction ts generalizing w with
  | nil => exact .refl w
  | cons t ts ih =>
    have hfirst := installTemplate t w
    change w.Furnishes ((do Catalog.installTemplate t; ts.forM Catalog.installTemplate) w).2
    rw [Work.bind_apply]
    match hresult : Catalog.installTemplate t w with
    | (.ok _, w') =>
      rw [hresult] at hfirst
      exact hfirst.trans (ih w')
    | (.error _, w') =>
      rw [hresult] at hfirst
      exact hfirst

/-- Whether or not a catalog can be installed, what was published is still there. -/
theorem install (c : Catalog) (w : World σ) : w.Furnishes (c.install w).2 := by
  have htemplates := installTemplates c.templates w
  match hresult : c.templates.forM Catalog.installTemplate w with
  | (.ok (), w') =>
    rw [hresult] at htemplates
    rw [Catalog.install_of_templates hresult]
    exact htemplates.trans ⟨rfl, rfl, rfl, Store.KeepsPublished.of_templates rfl⟩
  | (.error err, w') =>
    rw [hresult] at htemplates
    rw [Catalog.install, Work.bind_of_error hresult]
    exact htemplates

end World.Furnishes

end Casework
