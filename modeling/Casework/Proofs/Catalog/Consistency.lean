import Casework.Proofs.Catalog.Install
import Casework.Proofs.Formula.Evaluation
import Casework.Proofs.Formula.Tokens
import Casework.Proofs.Template.Links

/-!
# Valid catalogs are the consistent ones

What makes a catalog consistent can be said without checking one thing after the other: ids are
distinct, successors are steps, formulas are sentences of the grammar, and the configurations of
decision tables and calculations name rule sets and formulas that are there. Validation passes just
these catalogs, of whatever size and in whatever order.
-/

namespace Casework

/-! ### Templates -/

namespace Template

variable {t : Template}

theorem duplicate?_eq_none_of_nodup {seen : List String} {ss : List Step}
    (hnodup : (ss.map Step.id).Nodup) (hseen : ∀ s ∈ ss, s.id ∉ seen) :
    duplicate? seen ss = none := by
  induction ss generalizing seen with
  | nil => rfl
  | cons s ss ih =>
    obtain ⟨hs, hss⟩ := List.forall_mem_cons.1 hseen
    obtain ⟨hnew, hnodup⟩ := List.nodup_cons.1 hnodup
    rw [duplicate?, if_neg hs]
    refine ih hnodup fun u hu hmem => ?_
    rcases List.mem_cons.1 hmem with hsame | hmem
    · exact hnew (hsame ▸ List.mem_map_of_mem hu)
    · exact hss u hu hmem

theorem strayLink?_eq_none_of_known
    (h : ∀ s ∈ t.steps, ∀ target ∈ s.successors, ∃ u ∈ t.steps, u.id = target) :
    t.strayLink? = none := by
  refine List.findSome?_eq_none_iff.2 fun s hs => ?_
  rw [Option.map_eq_none_iff, List.find?_eq_none]
  intro target htarget
  obtain ⟨u, hu, rfl⟩ := h s hs target htarget
  simpa using ⟨u, hu, rfl⟩

theorem validate_eq_ok_iff : t.validate = .ok () ↔ (t.steps.map Step.id).Nodup ∧
    ∀ s ∈ t.steps, ∀ target ∈ s.successors, ∃ u ∈ t.steps, u.id = target := by
  constructor
  · intro h
    exact ⟨nodup_of_validate h, fun s hs target htarget => knows_successor h hs htarget target rfl⟩
  · rintro ⟨hnodup, hknown⟩
    rw [validate, duplicate?_eq_none_of_nodup hnodup fun _ _ => List.not_mem_nil]
    simp only [strayLink?_eq_none_of_known hknown]

end Template

/-! ### Formulas -/

namespace Formula

variable {ts : List Located} {value : String → Decimal} {formula : String}

/-- The token with a number in place of the variable that it names. -/
def Token.valued (value : String → Decimal) : Token → Token
  | .name text => if (Keyword.ofName? text).isSome then .name text else .number (value text)
  | t => t

/-- The text consists of tokens, which the grammar derives with numbers in place of variables. -/
def WellFormed (formula : String) : Prop :=
  ∃ (ts : List Located) (value : String → Decimal) (e : Expr), Cut 0 formula.toList ts ∧
    Derives .sum (ts.map fun t => t.token.valued value) e

theorem Located.bind_valued (value : String → Decimal) (t : Located) :
    t.bind (fun name => some (value name)) = .ok ⟨t.token.valued value, t.offset⟩ := by
  obtain ⟨token, offset⟩ := t
  rw [bind]
  cases token with
  | number d => rfl
  | symbol s => rfl
  | name text =>
    simp only [Token.valued]
    by_cases hreserved : (Keyword.ofName? text).isSome
    · rw [if_pos hreserved, if_pos hreserved]
    · rw [if_neg hreserved, if_neg hreserved]

theorem bindVariables_valued (value : String → Decimal) (ts : List Located) :
    bindVariables (fun name => some (value name)) ts =
      .ok (ts.map fun t => ⟨t.token.valued value, t.offset⟩) := by
  induction ts with
  | nil => rfl
  | cons t ts ih =>
    rw [bindVariables] at ih ⊢
    rw [List.mapM_cons, Located.bind_valued, ih]
    rfl

theorem Token.valued_outline (value value' : String → Decimal) (t : Token) :
    (t.valued value).outline = (t.valued value').outline := by
  cases t with
  | number d => rfl
  | symbol s => rfl
  | name text =>
    rw [valued, valued]
    split <;> rfl

/-- Which numbers stand in place of the variables does not matter. -/
theorem exists_derives_valued {e : Expr} (value' : String → Decimal)
    (h : Derives .sum (ts.map fun t => t.token.valued value) e) :
    ∃ e', Derives .sum (ts.map fun t => t.token.valued value') e' := by
  refine h.of_outline ?_
  rw [SameOutline, List.map_map, List.map_map]
  exact List.map_congr_left fun t _ => Token.valued_outline value' value t.token

theorem readable_iff_wellFormed :
    (∃ names, variablesOf formula = .ok names) ↔ WellFormed formula := by
  have hzeros (ts : List Located) := bindVariables_valued (fun _ => .zero) ts
  have hread (ts : List Located) (e : Expr) :
      parse (ts.map fun t => ⟨t.token.valued fun _ => .zero, t.offset⟩) = .ok e ↔
        Derives .sum (ts.map fun t => t.token.valued fun _ => .zero) e := by
    rw [parse_eq_ok_iff_derives, List.map_map]
    rfl
  constructor
  · rintro ⟨names, h⟩
    rw [variablesOf] at h
    obtain ⟨ts, hts, h⟩ := bind_eq_ok.1 h
    obtain ⟨us, hus, h⟩ := bind_eq_ok.1 h
    obtain ⟨e, he, -⟩ := bind_eq_ok.1 h
    obtain rfl := Except.ok.inj ((hzeros ts).symm.trans hus)
    exact ⟨ts, fun _ => .zero, e, cut_of_tokensFrom hts, (hread ts e).1 he⟩
  · rintro ⟨ts, value, e, hcut, hderives⟩
    obtain ⟨e', he'⟩ := exists_derives_valued (fun _ => .zero) hderives
    have hts : tokenize formula = .ok ts := tokensFrom_of_cut hcut
    exact ⟨variableNames ts, bind_eq_ok.2 ⟨ts, hts, bind_eq_ok.2 ⟨_, hzeros ts,
      bind_eq_ok.2 ⟨e', (hread ts e').2 he', rfl⟩⟩⟩⟩

end Formula

/-! ### Configurations -/

namespace StepConfig

variable {α : Type} [StepConfig α] {s : Step} {config : α}

/-- The step has a configuration that is not blank, and it is the text of this one. -/
def Configures (s : Step) (config : α) : Prop :=
  ∃ text d, s.configuration = some text ∧ (∃ c ∈ text.toList, Text.isBlank c = false) ∧
    Json.document? text = some d ∧ ofDocument? d = some config

theorem decode_eq_ok_iff : decode s = .ok config ↔ Configures s config := by
  have hdecode : decode s = .ok config ↔ (decode? s : Except ConfigError (Option α)) =
      .ok (some config) := by
    rw [decode, bind_eq_ok]
    constructor
    · rintro ⟨found, hfound, h⟩
      cases found with
      | none => cases h
      | some other =>
        cases h
        exact hfound
    · exact fun h => ⟨_, h, rfl⟩
  rw [hdecode, decode?, Configures]
  cases s.configuration with
  | none => simp
  | some text =>
    have hblank : Text.allBlank text = false ↔ ∃ c ∈ text.toList, Text.isBlank c = false := by
      rw [Text.allBlank, List.all_eq_false]
      simp
    simp only [Option.some.injEq, exists_and_left, exists_eq_left', ← hblank]
    cases Text.allBlank text with
    | true => simp
    | false =>
      rw [if_neg Bool.false_ne_true, ← Option.bind_eq_some_iff]
      cases ((Json.document? text).bind ofDocument? : Option α) with
      | none => simp
      | some other => simp

end StepConfig

/-! ### Catalogs -/

/-- Nothing stands twice, and whatever is named is there. -/
structure Catalog.Consistent (c : Catalog) : Prop where
  templates : (c.templates.map fun t => (t.id, t.version)).Nodup
  steps : ∀ t ∈ c.templates, (t.steps.map Step.id).Nodup
  successors : ∀ t ∈ c.templates, ∀ s ∈ t.steps, ∀ target,
    s.onSuccess = some target ∨ s.onFailure = some target → ∃ u ∈ t.steps, u.id = target
  ruleSets : (c.ruleSets.map RuleSet.id).Nodup
  formulas : (c.formulas.map Formula.id).Nodup
  expressions : ∀ f ∈ c.formulas, Formula.WellFormed f.expression
  decisions : ∀ t ∈ c.templates, ∀ s ∈ t.steps, s.type = .decisionTable →
    ∃ config : DecisionConfig, StepConfig.Configures s config ∧
      ∃ r ∈ c.ruleSets, r.id = config.ruleSetId
  calculations : ∀ t ∈ c.templates, ∀ s ∈ t.steps, s.type = .calculation →
    ∃ config : CalculationConfig, StepConfig.Configures s config ∧
      ∃ f ∈ c.formulas, f.id = config.formulaId

namespace Catalog

variable {c : Catalog} {t : Template} {s : Step} {f : Formula} {id : String}

theorem isSome_ruleSet?_iff : (c.ruleSet? id).isSome ↔ ∃ r ∈ c.ruleSets, r.id = id := by
  rw [ruleSet?, List.find?_isSome]
  simp only [beq_iff_eq]

theorem isSome_formula?_iff : (c.formula? id).isSome ↔ ∃ f ∈ c.formulas, f.id = id := by
  rw [formula?, List.find?_isSome]
  simp only [beq_iff_eq]

theorem checkFormula_eq_ok_iff : checkFormula f = .ok () ↔ Formula.WellFormed f.expression := by
  rw [← Formula.readable_iff_wellFormed]
  constructor
  · exact variablesOf_of_checkFormula
  · rintro ⟨names, h⟩
    rw [checkFormula, h]

theorem guard_of_isSome {α : Type} {o : Option α} {e : CatalogError} (h : o.isSome) :
    (if o.isNone then throw e else pure () : Except CatalogError Unit) = .ok () := by
  obtain ⟨a, rfl⟩ := Option.isSome_iff_exists.1 h
  rfl

/-- Each type of step asks for its own kind of configuration. -/
theorem checkStep_eq_ok_iff : c.checkStep t s = .ok () ↔
    (s.type = .decisionTable → ∃ config : DecisionConfig, StepConfig.Configures s config ∧
      ∃ r ∈ c.ruleSets, r.id = config.ruleSetId) ∧
    (s.type = .calculation → ∃ config : CalculationConfig, StepConfig.Configures s config ∧
      ∃ f ∈ c.formulas, f.id = config.formulaId) := by
  simp only [← StepConfig.decode_eq_ok_iff, ← isSome_ruleSet?_iff, ← isSome_formula?_iff]
  refine ⟨fun h => ⟨fun htype => decisionConfig_of_checkStep htype h,
    fun htype => calculationConfig_of_checkStep htype h⟩, ?_⟩
  rintro ⟨hdecision, hcalculation⟩
  rw [checkStep]
  cases htype : s.type with
  | decisionTable =>
    obtain ⟨config, hconfig, hknown⟩ := hdecision htype
    exact bind_eq_ok.2 ⟨config, mapError_eq_ok.2 hconfig, guard_of_isSome hknown⟩
  | calculation =>
    obtain ⟨config, hconfig, hknown⟩ := hcalculation htype
    exact bind_eq_ok.2 ⟨config, mapError_eq_ok.2 hconfig, guard_of_isSome hknown⟩
  | humanTask | clientApproval | documentGeneration => rfl

/-- One after the other, the checks of a catalog. -/
theorem validate_eq_ok_iff : c.validate = .ok () ↔
    ((c.templates.map fun t => (t.id, t.version)).Nodup ∧
      ∀ t ∈ c.templates, t.validate = .ok ()) ∧
    (c.ruleSets.map RuleSet.id).Nodup ∧
    ((c.formulas.map Formula.id).Nodup ∧ ∀ f ∈ c.formulas, checkFormula f = .ok ()) ∧
    ∀ t ∈ c.templates, ∀ s ∈ t.steps, c.checkStep t s = .ok () := by
  have hunit {x y : Except CatalogError Unit} :
      (x >>= fun _ => y) = .ok () ↔ x = .ok () ∧ y = .ok () := by
    rw [bind_eq_ok, exists_and_right]
    exact and_congr_left fun _ => ⟨fun ⟨_, h⟩ => h, fun h => ⟨(), h⟩⟩
  have htemplate (t : Template) : checkTemplate t = .ok () ↔ t.validate = .ok () := mapError_eq_ok
  rw [validate, hunit, hunit, hunit]
  simp only [checkEach_eq_ok_iff, forM_eq_ok, htemplate, List.not_mem_nil, not_false_eq_true,
    true_and, and_true, implies_true]

/-- A catalog is valid just if it is consistent. -/
theorem valid_iff_consistent (c : Catalog) : c.validate = .ok () ↔ c.Consistent := by
  rw [validate_eq_ok_iff]
  simp only [Template.validate_eq_ok_iff, checkFormula_eq_ok_iff, checkStep_eq_ok_iff]
  have hsuccessors (s : Step) (target : String) : target ∈ s.successors ↔
      s.onSuccess = some target ∨ s.onFailure = some target := by
    rw [Step.successors, List.mem_append, Option.mem_toList, Option.mem_toList]
  simp only [hsuccessors]
  constructor
  · rintro ⟨⟨htemplates, hvalid⟩, hruleSets, ⟨hformulas, hexpressions⟩, hsteps⟩
    exact ⟨htemplates, fun t ht => (hvalid t ht).1, fun t ht => (hvalid t ht).2, hruleSets,
      hformulas, hexpressions, fun t ht s hs => (hsteps t ht s hs).1,
      fun t ht s hs => (hsteps t ht s hs).2⟩
  · intro h
    exact ⟨⟨h.templates, fun t ht => ⟨h.steps t ht, h.successors t ht⟩⟩, h.ruleSets,
      ⟨h.formulas, h.expressions⟩,
      fun t ht s hs => ⟨h.decisions t ht s hs, h.calculations t ht s hs⟩⟩

end Catalog

end Casework
