import Casework.Proofs.Catalog.Permanence
import Casework.Proofs.Catalog.Soundness

/-!
# A valid catalog is what the store has

Whatever a store holds, a valid catalog can be installed into it. Its rule sets and formulas are
then in the store, and so are its templates, except that a version that was published already stays
as it was. Nothing else changes, and to install the catalog once more changes nothing at all. What
carries this is that no key stands twice in a valid catalog, so that nothing of it takes the place of
anything else of it. In a store that was empty one therefore finds by an id what one finds by it in
the catalog.
-/

namespace Casework

variable {σ τ : Type}

namespace Catalog

variable {c : Catalog} {id : String} {version : Nat}

/-! ### Keys that stand once -/

/-- No template, rule set or formula stands twice. -/
structure Distinct (c : Catalog) : Prop where
  templates : (c.templates.map fun t => (t.id, t.version)).Nodup
  ruleSets : (c.ruleSets.map RuleSet.id).Nodup
  formulas : (c.formulas.map Formula.id).Nodup

theorem distinct_of_validate (h : c.validate = .ok ()) : c.Distinct := by
  rw [validate, bind_eq_ok] at h
  obtain ⟨_, htemplates, h⟩ := h
  obtain ⟨_, hruleSets, h⟩ := bind_eq_ok.1 h
  obtain ⟨_, hformulas, -⟩ := bind_eq_ok.1 h
  exact ⟨(checkEach_eq_ok_iff.1 htemplates).1, (checkEach_eq_ok_iff.1 hruleSets).1,
    (checkEach_eq_ok_iff.1 hformulas).1⟩

/-! ### Templates one after the other -/

/-- What the store has of a template once it has been installed: the version that was published
before, or else this one with a stamp. -/
def InstalledOver (before after : Option Template) (t : Template) : Prop :=
  match before.filter (·.isPublished) with
  | some old => after = some old
  | none => ∃ stamp, after = some (t.stamped (some stamp))

section

variable {before after : Option Template} {t : Template}

theorem InstalledOver.published (h : InstalledOver before after t) :
    ∃ stored, after = some stored ∧ stored.isPublished := by
  rw [InstalledOver] at h
  cases hbefore : before.filter (·.isPublished) with
  | none =>
    rw [hbefore] at h
    obtain ⟨stamp, rfl⟩ := h
    exact ⟨_, rfl, rfl⟩
  | some old =>
    rw [hbefore] at h
    exact ⟨old, h, (Option.filter_eq_some_iff.1 hbefore).2⟩

theorem installedOver_of_published (h : before.any (·.isPublished)) :
    InstalledOver before before t := by
  cases before with
  | none => cases h
  | some old =>
    have hpublished : old.isPublished := h
    simp only [InstalledOver, Option.filter, hpublished, if_true]

theorem installedOver_of_unpublished (h : ¬ before.any (·.isPublished)) (now : Time) :
    InstalledOver before (some (t.stamped (t.publishedAt.or (some now)))) t := by
  have hnone : before.filter (·.isPublished) = none := by
    rw [Option.filter_eq_none_iff]
    rintro old rfl
    exact h
  rw [InstalledOver, hnone]
  cases t.publishedAt with
  | none => exact ⟨now, rfl⟩
  | some stamp => exact ⟨stamp, rfl⟩

end

/-- The later world has the templates as they are installed; other templates and whatever is no
template are as they were. -/
structure Adds (ts : List Template) (w w' : World σ) : Prop where
  installed : ∀ t ∈ ts, InstalledOver (w.store.template? t.id t.version)
    (w'.store.template? t.id t.version) t
  others : ∀ {id version}, (id, version) ∉ ts.map (fun t => (t.id, t.version)) →
    w'.store.template? id version = w.store.template? id version
  rest : ∃ templates, w'.store = { w.store with templates }

theorem installTemplate_adds {t : Template} {w : World σ} (ht : t.validate = .ok ()) :
    ∃ w', Catalog.installTemplate t w = (.ok (), w') ∧ Adds [t] w w' := by
  by_cases hstored : (w.store.template? t.id t.version).any (·.isPublished)
  · refine ⟨w, installTemplate_of_published hstored, ?_, fun _ => rfl, _, rfl⟩
    rw [List.forall_mem_singleton]
    exact installedOver_of_published hstored
  · have hpublish := publish_apply ht (by simpa using hstored)
    let stored : Template := t.stamped (t.publishedAt.or (some (w.clock w.readings)))
    have hfind (key : String × Nat) : (w.store.templates.insert stored).find? key =
        if (t.id, t.version) = key then some stored else w.store.templates.find? key :=
      Register.find?_insert w.store.templates stored key
    refine ⟨_, (installTemplate_of_unpublished hstored).trans hpublish, ?_, ?_, _, rfl⟩
    · rw [List.forall_mem_singleton]
      rw [Store.template?, Store.template?, hfind, if_pos rfl]
      exact installedOver_of_unpublished hstored _
    · intro id version hne
      rw [List.map_singleton, List.mem_singleton] at hne
      rw [Store.template?, Store.template?, hfind, if_neg (Ne.symm hne)]

/-- Templates with distinct keys can be installed one after the other. -/
theorem installTemplates_adds {ts : List Template} {w : World σ}
    (hvalid : ∀ t ∈ ts, t.validate = .ok ())
    (hdistinct : (ts.map fun t => (t.id, t.version)).Nodup) :
    ∃ w', ts.forM Catalog.installTemplate w = (.ok (), w') ∧ Adds ts w w' := by
  induction ts generalizing w with
  | nil => exact ⟨w, rfl, nofun, fun _ => rfl, _, rfl⟩
  | cons t ts ih =>
    obtain ⟨ht, hts⟩ := List.forall_mem_cons.1 hvalid
    obtain ⟨hnew, hdistinct⟩ := List.nodup_cons.1 hdistinct
    obtain ⟨w', hfirst, hadds⟩ := installTemplate_adds (w := w) ht
    obtain ⟨w'', hothers, hadds'⟩ := ih (w := w') hts hdistinct
    refine ⟨w'', ?_, ?_, ?_, ?_⟩
    · rw [← hothers]
      exact Work.bind_of_ok hfirst
    · refine List.forall_mem_cons.2 ⟨?_, fun t' ht' => ?_⟩
      · rw [hadds'.others hnew]
        exact hadds.installed t List.mem_cons_self
      · have hkept : w'.store.template? t'.id t'.version = w.store.template? t'.id t'.version := by
          refine hadds.others ?_
          rw [List.map_singleton, List.mem_singleton]
          intro heq
          exact hnew (List.mem_map.2 ⟨t', ht', heq⟩)
        rw [← hkept]
        exact hadds'.installed t' ht'
    · intro id version hnone
      rw [List.map_cons, List.mem_cons, not_or] at hnone
      rw [hadds'.others hnone.2, hadds.others (by simpa using hnone.1)]
    · obtain ⟨templates, hstore⟩ := hadds.rest
      obtain ⟨templates', hstore'⟩ := hadds'.rest
      exact ⟨templates', by rw [hstore', hstore]⟩

theorem installTemplates_of_published {ts : List Template} {w : World σ}
    (h : ∀ t ∈ ts, (w.store.template? t.id t.version).any (·.isPublished)) :
    ts.forM Catalog.installTemplate w = (.ok (), w) := by
  induction ts with
  | nil => rfl
  | cons t ts ih =>
    obtain ⟨ht, hts⟩ := List.forall_mem_cons.1 h
    have hfirst := installTemplate_of_published ht
    rw [← ih hts]
    exact Work.bind_of_ok hfirst

/-! ### The store behind an installation -/

/-- What a store holds once a catalog has been installed into it. -/
structure Installed (c : Catalog) (s s' : Store) : Prop where
  templates : ∀ t ∈ c.templates,
    InstalledOver (s.template? t.id t.version) (s'.template? t.id t.version) t
  ruleSets : ∀ r ∈ c.ruleSets, s'.ruleSet? r.id = some r
  formulas : ∀ f ∈ c.formulas, s'.formula? f.id = some f
  otherTemplates : ∀ {id version}, (∀ t ∈ c.templates, t.id = id → t.version ≠ version) →
    s'.template? id version = s.template? id version
  otherRuleSets : ∀ {id}, (∀ r ∈ c.ruleSets, r.id ≠ id) → s'.ruleSet? id = s.ruleSet? id
  otherFormulas : ∀ {id}, (∀ f ∈ c.formulas, f.id ≠ id) → s'.formula? id = s.formula? id
  records : s'.records = s.records
  tasks : s'.tasks = s.tasks

theorem Adds.installed_stock {w w' : World σ} (h : Adds c.templates w w') (hc : c.Distinct) :
    c.Installed w.store (c.stock w').store := by
  obtain ⟨templates, hstore⟩ := h.rest
  have hruleSets : w'.store.ruleSets = w.store.ruleSets := by rw [hstore]
  have hformulas : w'.store.formulas = w.store.formulas := by rw [hstore]
  have hrecords : w'.store.records = w.store.records := by rw [hstore]
  have htasks : w'.store.tasks = w.store.tasks := by rw [hstore]
  refine ⟨h.installed, fun r hr => ?_, fun f hf => ?_, fun hnone => ?_, fun hnone => ?_,
    fun hnone => ?_, hrecords, htasks⟩
  · exact Register.find?_foldl_insert_of_mem hc.ruleSets hr
  · exact Register.find?_foldl_insert_of_mem hc.formulas hf
  · refine h.others ?_
    intro hmem
    obtain ⟨t, ht, heq⟩ := List.mem_map.1 hmem
    exact hnone t ht (congrArg Prod.fst heq) (congrArg Prod.snd heq)
  · rw [Store.ruleSet?, Store.ruleSet?, ← hruleSets]
    exact Register.find?_foldl_insert_of_not_mem (by simpa using hnone)
  · rw [Store.formula?, Store.formula?, ← hformulas]
    exact Register.find?_foldl_insert_of_not_mem (by simpa using hnone)

theorem install_installed (h : c.validate = .ok ()) (w : World σ) :
    ∃ w', c.install w = (.ok (), w') ∧ c.Installed w.store w'.store := by
  have hdistinct := distinct_of_validate h
  obtain ⟨w', hinstall, hadds⟩ :=
    installTemplates_adds (w := w) (checked_of_validate h).templates hdistinct.templates
  exact ⟨c.stock w', install_of_templates hinstall, hadds.installed_stock hdistinct⟩

theorem Installed.stock {s : Store} {w : World τ} (h : c.Installed s w.store) :
    c.stock w = w := by
  rw [Catalog.stock, Register.foldl_insert_of_find? h.ruleSets,
    Register.foldl_insert_of_find? h.formulas]

/-- What has been installed is not installed again. -/
theorem Installed.install_again {s : Store} {w : World τ} (h : c.Installed s w.store) :
    c.install w = (.ok (), w) := by
  have htemplates : c.templates.forM Catalog.installTemplate w = (.ok (), w) := by
    refine installTemplates_of_published fun t ht => ?_
    obtain ⟨stored, hstored, hpublished⟩ := (h.templates t ht).published
    rw [hstored]
    exact hpublished
  rw [install_of_templates htemplates, h.stock]

/-! ### What is found by an id -/

theorem foldl_newer (best : Template) (ts : List Template) :
    ∃ t ∈ best :: ts, ts.foldl newer (some best) = some t ∧
      ∀ t' ∈ best :: ts, t'.version ≤ t.version := by
  induction ts generalizing best with
  | nil => exact ⟨best, List.mem_cons_self, rfl, by simp⟩
  | cons u ts ih =>
    rw [List.foldl_cons, newer]
    by_cases hle : best.version ≤ u.version
    · obtain ⟨t, ht, hfold, hhighest⟩ := ih u
      rw [if_pos hle]
      refine ⟨t, List.mem_cons_of_mem best ht, hfold, List.forall_mem_cons.2 ⟨?_, hhighest⟩⟩
      exact hle.trans (hhighest u List.mem_cons_self)
    · obtain ⟨t, ht, hfold, hhighest⟩ := ih best
      obtain ⟨hbest, hts⟩ := List.forall_mem_cons.1 hhighest
      rw [if_neg hle]
      refine ⟨t, ?_, hfold, List.forall_mem_cons.2 ⟨hbest, List.forall_mem_cons.2 ⟨?_, hts⟩⟩⟩
      · rcases List.mem_cons.1 ht with rfl | ht
        · exact List.mem_cons_self
        · exact List.mem_cons_of_mem best (List.mem_cons_of_mem u ht)
      · exact (Nat.le_of_not_le hle).trans hbest

/-- The template that is found by an id has the highest version of those with the id. -/
theorem template?_highest {t : Template} (h : c.template? id = some t) :
    t ∈ c.templates ∧ t.id = id ∧ ∀ t' ∈ c.templates, t'.id = id → t'.version ≤ t.version := by
  rw [template?] at h
  have hmem : ∀ {t'}, t' ∈ c.templates.filter (·.id == id) ↔ t' ∈ c.templates ∧ t'.id = id := by
    simp [List.mem_filter]
  cases hts : c.templates.filter (·.id == id) with
  | nil =>
    rw [hts] at h
    cases h
  | cons best ts =>
    obtain ⟨t', ht', hfold, hhighest⟩ := foldl_newer best ts
    rw [hts] at h
    obtain rfl := Option.some.inj (hfold.symm.trans h)
    rw [← hts] at ht' hhighest
    exact ⟨(hmem.1 ht').1, (hmem.1 ht').2, fun u hu hid => hhighest u (hmem.2 ⟨hu, hid⟩)⟩

theorem template?_eq_none_iff : c.template? id = none ↔ ∀ t ∈ c.templates, t.id ≠ id := by
  rw [template?]
  cases hts : c.templates.filter (·.id == id) with
  | nil => simpa [newer, List.filter_eq_nil_iff] using hts
  | cons best ts =>
    obtain ⟨t, -, hfold, -⟩ := foldl_newer best ts
    have hbest : best ∈ c.templates.filter (·.id == id) := by simp [hts]
    obtain ⟨hmem, hid⟩ := List.mem_filter.1 hbest
    constructor
    · intro h
      cases hfold.symm.trans h
    · intro h
      exact absurd (by simpa using hid) (h best hmem)

/-- In a store that was empty, the catalog's versions are the ones that are published. -/
theorem Installed.mem_publishedVersions {s' : Store} (h : c.Installed .empty s') :
    version ∈ s'.publishedVersions id ↔ ∃ t ∈ c.templates, t.id = id ∧ t.version = version := by
  rw [Store.mem_publishedVersions]
  constructor
  · rintro ⟨stored, hstored, -⟩
    by_contra hnone
    have hother : s'.template? id version = Store.empty.template? id version :=
      h.otherTemplates fun t ht hid hversion => hnone ⟨t, ht, hid, hversion⟩
    rw [hstored] at hother
    cases hother
  · rintro ⟨t, ht, rfl, rfl⟩
    exact (h.templates t ht).published

theorem Installed.latestVersion? {s' : Store} (h : c.Installed .empty s') (id : String) :
    s'.latestVersion? id = (c.template? id).map (·.version) := by
  cases ht : c.template? id with
  | none =>
    refine List.max?_eq_none_iff.2 (List.eq_nil_iff_forall_not_mem.2 fun version hversion => ?_)
    obtain ⟨t, hmem, hid, -⟩ := h.mem_publishedVersions.1 hversion
    exact template?_eq_none_iff.1 ht t hmem hid
  | some t =>
    obtain ⟨hmem, hid, hhighest⟩ := template?_highest ht
    refine List.max?_eq_some_iff.2 ⟨h.mem_publishedVersions.2 ⟨t, hmem, hid, rfl⟩, ?_⟩
    intro version hversion
    obtain ⟨t', hmem', hid', rfl⟩ := h.mem_publishedVersions.1 hversion
    exact hhighest t' hmem' hid'

theorem Installed.ruleSet? {s' : Store} (h : c.Installed .empty s') (id : String) :
    s'.ruleSet? id = c.ruleSet? id := by
  rw [Catalog.ruleSet?]
  cases hr : c.ruleSets.find? (·.id == id) with
  | none => exact h.otherRuleSets (by simpa using hr)
  | some r =>
    obtain rfl : r.id = id := by simpa using List.find?_some hr
    exact h.ruleSets r (List.mem_of_find?_eq_some hr)

theorem Installed.formula? {s' : Store} (h : c.Installed .empty s') (id : String) :
    s'.formula? id = c.formula? id := by
  rw [Catalog.formula?]
  cases hf : c.formulas.find? (·.id == id) with
  | none => exact h.otherFormulas (by simpa using hf)
  | some f =>
    obtain rfl : f.id = id := by simpa using List.find?_some hf
    exact h.formulas f (List.mem_of_find?_eq_some hf)

/-- A valid catalog can be installed into any store, which then has it besides what it had. Whoever
installs it again, with whatever world round that store, changes nothing; and if the store was
empty, one finds in it what one finds in the catalog. -/
theorem install_of_validate (h : c.validate = .ok ()) (w : World σ) :
    ∃ w', c.install w = (.ok (), w') ∧ c.Installed w.store w'.store ∧
      (∀ v : World τ, v.store = w'.store → c.install v = (.ok (), v)) ∧
      (w.store = .empty → ∀ id,
        w'.store.latestVersion? id = (c.template? id).map (·.version) ∧
          w'.store.ruleSet? id = c.ruleSet? id ∧ w'.store.formula? id = c.formula? id) := by
  obtain ⟨w', hinstall, hinstalled⟩ := install_installed h w
  refine ⟨w', hinstall, hinstalled, fun v hv => ?_, fun hempty id => ?_⟩
  · rw [← hv] at hinstalled
    exact hinstalled.install_again
  · rw [hempty] at hinstalled
    exact ⟨hinstalled.latestVersion? id, hinstalled.ruleSet? id, hinstalled.formula? id⟩

/-- The first version of the rebate has been published before, with no steps. -/
def publishedRebate : Template := ⟨"rebate", 1, "Old rebate", none, [], some ⟨5⟩⟩

/-- A store that has the old rebate, another tier and a formula of its own. -/
def stocked : World Unit :=
  { Rebate.world with
    store := { Store.empty with
      templates := Register.empty.insert publishedRebate
      ruleSets := Register.empty.insert ⟨"tier", "Old tier", none, []⟩
      formulas := Register.empty.insert (.ofExpression "fee" "5") } }

open Rebate in
theorem install_of_validate_rebate :
    (∃ w', catalog.install stocked = (.ok (), w') ∧
      w'.store.template? "rebate" 1 = some publishedRebate ∧
      w'.store.ruleSet? "tier" = some ⟨"tier", "Tier", none, []⟩ ∧
      w'.store.formula? "fee" = some (.ofExpression "fee" "5") ∧
      catalog.install w' = (.ok (), w')) ∧
    ∃ w', catalog.install world = (.ok (), w') ∧ w'.store.latestVersion? "rebate" = some 1 := by
  constructor
  · obtain ⟨w', hinstall, hinstalled, hagain, -⟩ := install_of_validate validate_catalog stocked
    refine ⟨w', hinstall, ?_, ?_, ?_, hagain w' rfl⟩
    · exact hinstalled.templates catalog.templates[0] List.mem_cons_self
    · exact hinstalled.ruleSets ⟨"tier", "Tier", none, []⟩ List.mem_cons_self
    · exact hinstalled.otherFormulas (by decide)
  · obtain ⟨w', hinstall, -, -, hfound⟩ := install_of_validate (τ := Unit) validate_catalog world
    exact ⟨w', hinstall, (hfound rfl "rebate").1⟩

end Catalog

end Casework
