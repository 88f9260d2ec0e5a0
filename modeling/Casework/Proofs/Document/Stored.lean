import Casework.Decision.Document
import Casework.Formula.Basic
import Casework.Template.Document
import Casework.Proofs.Document.Record
import Casework.Proofs.Executor.Config

/-!
# What is stored is read back

Rule sets, formulas and unpublished templates come back from their encodings as they were: every
field is written under its own name, texts that look like numbers or truth values stay texts, and
what an alternative is called is what it is known by. The numbers among the fields have 32 bits, and
no others can be read, so that a value survives just if its numbers fit.
-/

namespace Casework

open Document (Decodes required?_eq defaulted?_eq optionalField?_eq decodes_text decodes_bool
  decodes_int32 decodes_list)

theorem Json.exact_ofTable {members : List (String × Json)} (h : ∀ m ∈ members, m.2.Exact) :
    (ofTable members).Exact :=
  .object fun m hm => h m (Dictionary.mem_of_mem_ofList hm)

theorem Json.exact_int32 {i : Int} (h : IsInt32 i) : (Json.int i).Exact := by
  obtain ⟨hlow, hhigh⟩ := h
  have hwords : twoTo 31 ≤ twoTo 63 ∧ twoTo 31 ≤ twoTo 64 := by decide
  exact .int (by omega) (by omega)

theorem Json.exact_list {α : Type} {encode : α → Json} {as : List α}
    (h : ∀ a ∈ as, (encode a).Exact) : (Json.array (as.map encode)).Exact := by
  apply Exact.array
  intro j hj
  obtain ⟨a, ha, rfl⟩ := List.mem_map.1 hj
  exact h a ha

/-! ### Rule sets -/

theorem Document.decodes_cell (s : String) : Decodes cell? (.text s) s := by
  intro i hi
  cases hi
  rfl

theorem Operator.ofName?_name (op : Operator) : ofName? op.name = some op := by
  cases op <;> decide

theorem Operator.decodes (op : Operator) : Decodes ofDocument? (.text op.name) op :=
  Document.decodes_alternative op.ofName?_name

namespace Condition

theorem decodes (c : Condition) : Decodes ofDocument? c.toJson c := by
  intro k hk
  have hdistinct : ["column", "operator", "value", "value_to"].Nodup := by decide
  obtain ⟨fields, hfields, hmembers⟩ := Document.fields?_ofTable hdistinct rfl hk
  simp only [List.forall_mem_cons] at hmembers
  obtain ⟨hcolumn, hoperator, hvalue, hvalueTo, -⟩ := hmembers
  rw [ofDocument?, hfields]
  simp only [Option.bind_eq_bind, Option.bind_some, required?_eq hcolumn (decodes_text _),
    required?_eq hoperator c.operator.decodes, defaulted?_eq hvalue (Document.decodes_cell _),
    optionalField?_eq hvalueTo Document.decodes_cell]
  rfl

theorem toJson_exact (c : Condition) : c.toJson.Exact := by
  apply Json.exact_ofTable
  simp only [List.forall_mem_cons, List.not_mem_nil, false_implies, implies_true, and_true]
  exact ⟨.text _, .text _, .text _, Json.exact_optional _⟩

end Condition

namespace Rule

theorem decodes {r : Rule} (h : IsInt32 r.priority) : Decodes ofDocument? r.toJson r := by
  intro k hk
  have hdistinct : ["id", "priority", "enabled", "conditions", "outputs"].Nodup := by decide
  obtain ⟨fields, hfields, hmembers⟩ := Document.fields?_ofTable hdistinct rfl hk
  simp only [List.forall_mem_cons] at hmembers
  obtain ⟨hid, hpriority, henabled, hconditions, houtputs, -⟩ := hmembers
  rw [ofDocument?, hfields]
  simp only [Option.bind_eq_bind, Option.bind_some, required?_eq hid (decodes_text _),
    required?_eq hpriority (decodes_int32 h), defaulted?_eq henabled (decodes_bool _),
    defaulted?_eq hconditions (decodes_list fun c _ => c.decodes),
    defaulted?_eq houtputs (Document.decodes_dictionary Document.decodes_cell _)]
  rfl

theorem toJson_exact {r : Rule} (h : IsInt32 r.priority) : r.toJson.Exact := by
  have houtputs : (Json.object (r.outputs.map Json.text).entries).Exact := by
    apply Json.Exact.object
    intro m hm
    obtain ⟨e, -, rfl⟩ := List.mem_map.1 hm
    exact .text e.2
  apply Json.exact_ofTable
  simp only [List.forall_mem_cons, List.not_mem_nil, false_implies, implies_true, and_true]
  exact ⟨.text _, Json.exact_int32 h, .bool _, Json.exact_list fun c _ => c.toJson_exact, houtputs⟩

theorem yields_priority : Document.Yields ofDocument? fun r => IsInt32 r.priority := by
  intro d r h
  simp only [ofDocument?, Option.bind_eq_bind, Option.bind_eq_some_iff] at h
  obtain ⟨fields, -, id, -, priority, hpriority, enabled, -, conditions, -, outputs, -, hr⟩ := h
  obtain rfl := Option.some.inj hr
  exact Document.yields_int32.required hpriority

end Rule

namespace RuleSet

/-- The priorities of the rules fit into 32 bits. -/
def Fits (s : RuleSet) : Prop := ∀ r ∈ s.rules, IsInt32 r.priority

theorem decodes {s : RuleSet} (h : s.Fits) : Decodes ofDocument? s.toJson s := by
  intro k hk
  have hdistinct : ["id", "name", "description", "rules"].Nodup := by decide
  obtain ⟨fields, hfields, hmembers⟩ := Document.fields?_ofTable hdistinct rfl hk
  simp only [List.forall_mem_cons] at hmembers
  obtain ⟨hid, hname, hdescription, hrules, -⟩ := hmembers
  rw [ofDocument?, hfields]
  simp only [Option.bind_eq_bind, Option.bind_some, required?_eq hid (decodes_text _),
    defaulted?_eq hname (decodes_text _), optionalField?_eq hdescription decodes_text,
    defaulted?_eq hrules (decodes_list fun r hr => Rule.decodes (h r hr))]
  rfl

theorem toJson_exact {s : RuleSet} (h : s.Fits) : s.toJson.Exact := by
  apply Json.exact_ofTable
  simp only [List.forall_mem_cons, List.not_mem_nil, false_implies, implies_true, and_true]
  exact ⟨.text _, .text _, Json.exact_optional _,
    Json.exact_list fun r hr => Rule.toJson_exact (h r hr)⟩

theorem yields_fits : Document.Yields ofDocument? Fits := by
  intro d s h
  simp only [ofDocument?, Option.bind_eq_bind, Option.bind_eq_some_iff] at h
  obtain ⟨fields, -, id, -, name, -, description, -, rules, hrules, hs⟩ := h
  obtain rfl := Option.some.inj hs
  exact Rule.yields_priority.list.defaulted (by simp) hrules

end RuleSet

/-! ### Templates -/

theorem StepType.decodes (t : StepType) : Decodes ofDocument? (.text t.name) t := by
  apply Document.decodes_alternative
  cases t <;> decide

namespace Step

theorem decodes {s : Step} (h : IsInt32 s.sortOrder) : Decodes ofDocument? s.toJson s := by
  intro k hk
  have hdistinct : ["id", "name", "type", "sort_order", "configuration", "required",
    "next_step_on_success", "next_step_on_failure"].Nodup := by decide
  obtain ⟨fields, hfields, hmembers⟩ := Document.fields?_ofTable hdistinct rfl hk
  simp only [List.forall_mem_cons] at hmembers
  obtain ⟨hid, hname, htype, horder, hconfiguration, hrequired, hsuccess, hfailure, -⟩ := hmembers
  rw [ofDocument?, hfields]
  simp only [Option.bind_eq_bind, Option.bind_some, required?_eq hid (decodes_text _),
    required?_eq hname (decodes_text _), required?_eq htype s.type.decodes,
    required?_eq horder (decodes_int32 h), optionalField?_eq hconfiguration decodes_text,
    defaulted?_eq hrequired (decodes_bool _), optionalField?_eq hsuccess decodes_text,
    optionalField?_eq hfailure decodes_text]
  rfl

theorem toJson_exact {s : Step} (h : IsInt32 s.sortOrder) : s.toJson.Exact := by
  apply Json.exact_ofTable
  simp only [List.forall_mem_cons, List.not_mem_nil, false_implies, implies_true, and_true]
  exact ⟨.text _, .text _, .text _, Json.exact_int32 h, Json.exact_optional _, .bool _,
    Json.exact_optional _, Json.exact_optional _⟩

theorem yields_sortOrder : Document.Yields ofDocument? fun s => IsInt32 s.sortOrder := by
  intro d s h
  simp only [ofDocument?, Option.bind_eq_bind, Option.bind_eq_some_iff] at h
  obtain ⟨fields, -, id, -, name, -, type, -, order, horder, configuration, -, required, -,
    success, -, failure, -, hs⟩ := h
  obtain rfl := Option.some.inj hs
  exact Document.yields_int32.required horder

end Step

namespace Template

/-- The version and the sort orders of the steps fit into 32 bits. -/
structure Fits (t : Template) : Prop where
  version : t.version < twoTo 32
  sortOrders : ∀ s ∈ t.steps, IsInt32 s.sortOrder

theorem decodes {t : Template} (hfits : t.Fits) (hunpublished : t.publishedAt = none) :
    Decodes ofDocument? t.toJson t := by
  intro k hk
  have hdistinct :
    ["id", "version", "name", "description", "steps", "published_at"].Nodup := by decide
  obtain ⟨fields, hfields, hmembers⟩ := Document.fields?_ofTable hdistinct rfl hk
  simp only [List.forall_mem_cons, hunpublished, Option.elim_none] at hmembers
  obtain ⟨hid, hversion, hname, hdescription, hsteps, hpublished, -⟩ := hmembers
  have hpublishedAt : Document.optionalField? Time.ofDocument? "published_at" fields = some none :=
    defaulted?_eq hpublished Document.decodes_none
  rw [ofDocument?, hfields]
  simp only [Option.bind_eq_bind, Option.bind_some, required?_eq hid (decodes_text _),
    required?_eq hversion (Document.decodes_nat32 hfits.version),
    required?_eq hname (decodes_text _), optionalField?_eq hdescription decodes_text,
    required?_eq hsteps (decodes_list fun s hs => Step.decodes (hfits.sortOrders s hs)),
    hpublishedAt, ← hunpublished]
  rfl

theorem toJson_exact {t : Template} (hfits : t.Fits) (hunpublished : t.publishedAt = none) :
    t.toJson.Exact := by
  have hwords : twoTo 32 ≤ twoTo 64 := by decide
  have hversion : (Json.int t.version).Exact := by
    have hlt := hfits.version
    exact .int (by omega) (by omega)
  apply Json.exact_ofTable
  simp only [List.forall_mem_cons, List.not_mem_nil, false_implies, implies_true, and_true,
    hunpublished, Option.elim_none]
  exact ⟨.text _, hversion, .text _, Json.exact_optional _,
    Json.exact_list fun s hs => Step.toJson_exact (hfits.sortOrders s hs), .null⟩

theorem yields_fits : Document.Yields ofDocument? Fits := by
  intro d t h
  simp only [ofDocument?, Option.bind_eq_bind, Option.bind_eq_some_iff] at h
  obtain ⟨fields, -, id, -, version, hversion, name, -, description, -, steps, hsteps,
    publishedAt, -, ht⟩ := h
  obtain rfl := Option.some.inj ht
  exact ⟨Document.yields_nat32.required hversion, Step.yields_sortOrder.list.required hsteps⟩

end Template

/-! ### Formulas -/

namespace Formula

theorem decodes (f : Formula) : Decodes ofDocument? f.toJson f := by
  intro k hk
  have hdistinct : ["id", "name", "expression", "description"].Nodup := by decide
  obtain ⟨fields, hfields, hmembers⟩ := Document.fields?_ofTable hdistinct rfl hk
  simp only [List.forall_mem_cons] at hmembers
  obtain ⟨hid, hname, hexpression, hdescription, -⟩ := hmembers
  rw [ofDocument?, hfields]
  simp only [Option.bind_eq_bind, Option.bind_some, required?_eq hid (decodes_text _),
    defaulted?_eq hname (decodes_text _), required?_eq hexpression (decodes_text _),
    optionalField?_eq hdescription decodes_text]
  rfl

theorem toJson_exact (f : Formula) : f.toJson.Exact := by
  apply Json.exact_ofTable
  simp only [List.forall_mem_cons, List.not_mem_nil, false_implies, implies_true, and_true]
  exact ⟨.text _, .text _, .text _, Json.exact_optional _⟩

end Formula

/-! ### What survives -/

/-- The value comes back from its encoding, handed on as it is or written down as text, in whatever
order the members of its objects stand. -/
def Survives {α : Type} (decode : Document → Option α) (j : Json) (a : α) : Prop :=
  ∀ i, Json.Reordered i j →
    decode i.toDocument = some a ∧ (Json.document? i.compact).bind decode = some a

section

variable {α : Type} {decode : Document → Option α} {j : Json} {a : α}

theorem survives_of_decodes (hexact : j.Exact) (h : Decodes decode j a) : Survives decode j a := by
  intro i hi
  refine ⟨h hi, ?_⟩
  rw [Json.document?_compact_of_reordered hi hexact]
  exact h hi

theorem Survives.of_yields {p : α → Prop} (h : Survives decode j a)
    (hyields : Document.Yields decode p) : p a :=
  hyields (h j (.refl j)).1

end

/-- Every rule set, unpublished template and formula comes back from its encoding, as long as its
numbers fit, and so does the configuration of every step. -/
theorem stored_survives :
    (∀ s : RuleSet, Survives RuleSet.ofDocument? s.toJson s ↔ s.Fits) ∧
    (∀ t : Template, t.publishedAt = none →
      (Survives Template.ofDocument? t.toJson t ↔ t.Fits)) ∧
    (∀ f : Formula, Survives Formula.ofDocument? f.toJson f) ∧
    (∀ (s : Step) (c : DecisionConfig), s.configuration = some (StepConfig.encode c) →
      StepConfig.decode s = .ok c ∧ StepConfig.decode? s = .ok (some c)) ∧
    (∀ (s : Step) (c : CalculationConfig), s.configuration = some (StepConfig.encode c) →
      StepConfig.decode s = .ok c ∧ StepConfig.decode? s = .ok (some c)) ∧
    (∀ (s : Step) (c : TaskConfig), s.configuration = some (StepConfig.encode c) →
      StepConfig.decode s = .ok c ∧ StepConfig.decode? s = .ok (some c)) := by
  refine ⟨?ruleSets, ?templates, ?formulas, ?decisions, ?calculations, ?tasks⟩
  case ruleSets =>
    intro s
    constructor
    · intro h
      exact h.of_yields RuleSet.yields_fits
    · intro h
      exact survives_of_decodes (RuleSet.toJson_exact h) (RuleSet.decodes h)
  case templates =>
    intro t hunpublished
    constructor
    · intro h
      exact h.of_yields Template.yields_fits
    · intro h
      exact survives_of_decodes (Template.toJson_exact h hunpublished)
        (Template.decodes h hunpublished)
  case formulas =>
    intro f
    exact survives_of_decodes f.toJson_exact f.decodes
  case decisions =>
    intro s c h
    have hread := StepConfig.decode?_decision h
    exact ⟨StepConfig.decode_of_decode? hread, hread⟩
  case calculations =>
    intro s c h
    have hread := StepConfig.decode?_calculation h
    exact ⟨StepConfig.decode_of_decode? hread, hread⟩
  case tasks =>
    intro s c h
    have hread := StepConfig.decode?_task h
    exact ⟨StepConfig.decode_of_decode? hread, hread⟩

/-- Texts that look like numbers, truth values or nothing come back as the texts that they are. -/
theorem stored_survives_lookalikes :
    let s : RuleSet := ⟨"007", "", some "",
      [⟨"1e3", -5, false, [⟨"null", .between, "true", some "0"⟩], .ofList [("7", "null")]⟩]⟩
    let decision : DecisionConfig := ⟨"007"⟩
    let calculation : CalculationConfig := ⟨"null"⟩
    let task : TaskConfig := ⟨"", some "null", some "\"\n\""⟩
    let a : Step := ⟨"a", "1", .decisionTable, -1, some (StepConfig.encode decision), true, none,
      some "b"⟩
    let b : Step := ⟨"b", "", .calculation, 0, some (StepConfig.encode calculation), false,
      some "c", none⟩
    let c : Step := ⟨"c", "true", .humanTask, 2, some (StepConfig.encode task), true, none, none⟩
    let t : Template := ⟨"t", 1, "null", none, [a, b, c], none⟩
    (s.Fits ∧ Survives RuleSet.ofDocument? s.toJson s) ∧
    (t.publishedAt = none ∧ t.Fits ∧ Survives Template.ofDocument? t.toJson t) ∧
    (a.configuration = some (StepConfig.encode decision) ∧ StepConfig.decode a = .ok decision) ∧
    (b.configuration = some (StepConfig.encode calculation) ∧
      StepConfig.decode b = .ok calculation) ∧
    (c.configuration = some (StepConfig.encode task) ∧ StepConfig.decode c = .ok task) := by
  intro s decision calculation task a b c t
  have hrules : s.Fits := by
    intro r hr
    obtain rfl := List.mem_singleton.1 hr
    exact ⟨by decide, by decide⟩
  have hnumbers : t.Fits := by
    refine ⟨by decide, ?_⟩
    simp only [t, List.forall_mem_cons, List.not_mem_nil, false_implies, implies_true, and_true]
    exact ⟨⟨by decide, by decide⟩, ⟨by decide, by decide⟩, ⟨by decide, by decide⟩⟩
  obtain ⟨hruleSets, htemplates, -, hdecisions, hcalculations, htasks⟩ := stored_survives
  exact ⟨⟨hrules, (hruleSets s).2 hrules⟩, ⟨rfl, hnumbers, (htemplates t rfl).2 hnumbers⟩,
    ⟨rfl, (hdecisions a decision rfl).1⟩, ⟨rfl, (hcalculations b calculation rfl).1⟩,
    ⟨rfl, (htasks c task rfl).1⟩⟩

end Casework
