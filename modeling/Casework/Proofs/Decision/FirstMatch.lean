import Casework.Decision.Evaluate
import Mathlib.Data.Prod.Lex
import Mathlib.Logic.Equiv.Basic

/-!
# The first match decides

A rule applies to a row if it is enabled and all its conditions hold of the row. Of the rules that
apply, the one decides that is least by its priority and, among those of one priority, by its place
in the rule set. So nothing else about a rule set or a row has any influence on the decision: not
the rules that are disabled, not the order of rules of different priorities, and not the columns
that no enabled rule looks at.
-/

namespace Casework

/-- The rule is enabled, and each of its conditions holds of the row. -/
def Rule.Applies (r : Rule) (row : Row) : Prop := r.enabled ∧ ∀ c ∈ r.conditions, c.holds row

namespace RuleSet

variable {s s' : RuleSet} {rs rs' : List Rule} {r r' : Rule} {row row' : Row} {i j : Nat}

theorem applies_iff : r.Applies row ↔ r.enabled ∧ r.matches row := by
  rw [Rule.Applies, Rule.matches, List.all_eq_true]

/-- The rule stands at the place, and it is least by priority and place of those that apply. -/
structure FirstAt (rs : List Rule) (row : Row) (i : Nat) (r : Rule) : Prop where
  rule : rs[i]? = some r
  applies : r.Applies row
  least : ∀ {j r'}, rs[j]? = some r' → r'.Applies row →
    toLex (r.priority, i) ≤ toLex (r'.priority, j)

/-- There is one first rule at most. -/
theorem FirstAt.unique (h : FirstAt rs row i r) (h' : FirstAt rs row j r') : r = r' := by
  have hplace := le_antisymm (h.least h'.rule h'.applies) (h'.least h.rule h.applies)
  obtain ⟨-, rfl⟩ := Prod.mk.inj (toLex.injective hplace)
  exact Option.some.inj (h.rule.symm.trans h'.rule)

theorem toLex_succ_le {p q : Int} (h : toLex (p, i) ≤ toLex (q, j)) :
    toLex (p, i + 1) ≤ toLex (q, j + 1) := by
  rw [Prod.Lex.toLex_le_toLex] at h ⊢
  simpa using h

/-- A rule that does not apply takes nothing from the one that comes first behind it. -/
theorem FirstAt.cons_of_not_applies (h : FirstAt rs row i r) {a : Rule} (ha : ¬ a.Applies row) :
    FirstAt (a :: rs) row (i + 1) r where
  rule := h.rule
  applies := h.applies
  least {j r'} hr' happlies := by
    cases j with
    | zero =>
      obtain rfl := Option.some.inj hr'
      exact absurd happlies ha
    | succ j => exact toLex_succ_le (h.least hr' happlies)

/-- Nor does one of a higher priority number. -/
theorem FirstAt.cons_of_lt (h : FirstAt rs row i r) {a : Rule} (ha : r.priority < a.priority) :
    FirstAt (a :: rs) row (i + 1) r where
  rule := h.rule
  applies := h.applies
  least {j r'} hr' happlies := by
    cases j with
    | zero =>
      obtain rfl := Option.some.inj hr'
      exact Prod.Lex.toLex_le_toLex.2 (.inl ha)
    | succ j => exact toLex_succ_le (h.least hr' happlies)

/-- A rule that applies comes first if none behind it has a lower priority number. -/
theorem firstAt_zero {a : Rule} (ha : a.Applies row)
    (hleast : ∀ r ∈ rs, r.Applies row → a.priority ≤ r.priority) : FirstAt (a :: rs) row 0 a where
  rule := rfl
  applies := ha
  least {j r'} hr' happlies := by
    cases j with
    | zero =>
      obtain rfl := Option.some.inj hr'
      exact le_refl _
    | succ j =>
      rw [Prod.Lex.toLex_le_toLex]
      have hle := hleast r' (List.mem_of_getElem? hr') happlies
      rcases Int.lt_or_eq_of_le hle with hlt | heq
      · exact .inl hlt
      · exact .inr ⟨heq, Nat.zero_le _⟩

/-! ### The order in which rules are tried -/

theorem mem_tried : r ∈ tried rs ↔ r ∈ rs ∧ r.enabled := by
  rw [tried, List.mem_mergeSort, List.mem_filter]

theorem priority_trans (a b c : Rule) (hab : decide (a.priority ≤ b.priority))
    (hbc : decide (b.priority ≤ c.priority)) : decide (a.priority ≤ c.priority) := by
  simp only [decide_eq_true_eq] at *
  omega

theorem priority_total (a b : Rule) :
    decide (a.priority ≤ b.priority) || decide (b.priority ≤ a.priority) := by
  simp only [Bool.or_eq_true, decide_eq_true_eq]
  omega

theorem tried_cons_of_disabled {a : Rule} (ha : ¬ a.enabled) : tried (a :: rs) = tried rs := by
  rw [tried, List.filter_cons_of_neg ha, tried]

/-- An enabled rule is tried behind those of the rules after it that have a lower priority. -/
theorem tried_cons (rs : List Rule) {a : Rule} (ha : a.enabled) : ∃ before behind,
    tried (a :: rs) = before ++ a :: behind ∧ tried rs = before ++ behind ∧
      (∀ b ∈ before, b.priority < a.priority) ∧ ∀ b ∈ behind, a.priority ≤ b.priority := by
  obtain ⟨before, behind, hcons, hrs, hbefore⟩ :=
    List.mergeSort_cons priority_trans priority_total a (rs.filter (·.enabled))
  rw [tried, List.filter_cons_of_pos ha]
  refine ⟨before, behind, hcons, hrs, fun b hb => ?_, fun b hb => ?_⟩
  · simpa using hbefore b hb
  · have hsorted := List.pairwise_mergeSort priority_trans priority_total
      (a :: rs.filter (·.enabled))
    rw [hcons, List.pairwise_append, List.pairwise_cons] at hsorted
    simpa using hsorted.2.1.1 b hb

/-! ### The first match -/

theorem not_applies_of_find?_none {before behind : List Rule}
    (h : before.find? (·.matches row) = none) (htried : tried rs = before ++ behind)
    (hr : r ∈ rs) (happlies : r.Applies row) : r ∈ behind := by
  obtain ⟨henabled, hmatches⟩ := applies_iff.1 happlies
  have hmem : r ∈ before ++ behind := htried ▸ mem_tried.2 ⟨hr, henabled⟩
  refine (List.mem_append.1 hmem).resolve_left fun hbefore => ?_
  exact List.find?_eq_none.1 h r hbefore hmatches

/-- What is found among the rules in the order in which they are tried is the first that applies. -/
theorem firstAt_of_find? (h : (tried rs).find? (·.matches row) = some r) :
    ∃ i, FirstAt rs row i r := by
  -- By induction on the rules: the sort puts the first one into the sorted others at one place.
  induction rs with
  | nil =>
    rw [tried, List.filter_nil, List.mergeSort_nil] at h
    cases h
  | cons a rs ih =>
    by_cases henabled : a.enabled
    · obtain ⟨before, behind, hcons, hrs, hlt, hle⟩ := tried_cons rs henabled
      rw [hcons, List.find?_append] at h
      rw [hrs, List.find?_append] at ih
      cases hbefore : before.find? (·.matches row) with
      | some b =>
        simp only [hbefore, Option.some_or] at h ih
        obtain ⟨i, hfirst⟩ := ih h
        obtain rfl := Option.some.inj h
        exact ⟨i + 1, hfirst.cons_of_lt (hlt b (List.mem_of_find?_eq_some hbefore))⟩
      | none =>
        simp only [hbefore, Option.none_or] at h ih
        by_cases hmatches : a.matches row
        · simp only [List.find?_cons, hmatches] at h
          obtain rfl := Option.some.inj h
          refine ⟨0, firstAt_zero (applies_iff.2 ⟨henabled, hmatches⟩) fun r hr happlies => ?_⟩
          exact hle r (not_applies_of_find?_none hbefore hrs hr happlies)
        · simp only [List.find?_cons, hmatches] at h
          obtain ⟨i, hfirst⟩ := ih h
          exact ⟨i + 1, hfirst.cons_of_not_applies fun ha => hmatches (applies_iff.1 ha).2⟩
    · rw [tried_cons_of_disabled henabled] at h
      obtain ⟨i, hfirst⟩ := ih h
      exact ⟨i + 1, hfirst.cons_of_not_applies fun ha => henabled ha.1⟩

theorem decide?_eq_none_iff : s.decide? row = none ↔ ∀ r ∈ s.rules, ¬ r.Applies row := by
  rw [decide?, List.find?_eq_none]
  constructor
  · intro h r hr happlies
    obtain ⟨henabled, hmatches⟩ := applies_iff.1 happlies
    exact h r (mem_tried.2 ⟨hr, henabled⟩) hmatches
  · intro h r hr hmatches
    obtain ⟨hr, henabled⟩ := mem_tried.1 hr
    exact h r hr (applies_iff.2 ⟨henabled, hmatches⟩)

theorem decide?_eq_some_iff : s.decide? row = some r ↔ ∃ i, FirstAt s.rules row i r := by
  constructor
  · exact firstAt_of_find?
  · rintro ⟨i, hfirst⟩
    cases hdecide : s.decide? row with
    | none =>
      have hnone := decide?_eq_none_iff.1 hdecide r (List.mem_of_getElem? hfirst.rule)
      exact absurd hfirst.applies hnone
    | some r' =>
      obtain ⟨j, hfirst'⟩ := firstAt_of_find? hdecide
      rw [hfirst.unique hfirst']

/-! ### What has no influence -/

/-- The decision follows from what applies and comes first. -/
theorem decide?_eq_of_firstAt (hsome : ∀ {i r}, FirstAt s.rules row i r →
      ∃ j, FirstAt s'.rules row' j r)
    (hnone : (∀ r ∈ s.rules, ¬ r.Applies row) → ∀ r ∈ s'.rules, ¬ r.Applies row') :
    s'.decide? row' = s.decide? row := by
  cases hdecide : s.decide? row with
  | none => exact decide?_eq_none_iff.2 (hnone (decide?_eq_none_iff.1 hdecide))
  | some r =>
    obtain ⟨i, hfirst⟩ := decide?_eq_some_iff.1 hdecide
    exact decide?_eq_some_iff.2 (hsome hfirst)

/-- The same rules at other places, where those of one priority keep their order. -/
def Rearranges (rs rs' : List Rule) : Prop :=
  ∃ place : Fin rs.length ≃ Fin rs'.length, (∀ i, rs'.get (place i) = rs.get i) ∧
    ∀ i j, i < j → (rs.get i).priority = (rs.get j).priority → place i < place j

theorem Rearranges.firstAt (h : Rearranges rs rs') (hfirst : FirstAt rs row i r) :
    ∃ j, FirstAt rs' row j r := by
  obtain ⟨place, hrules, hkept⟩ := h
  obtain ⟨hi, hr⟩ := List.getElem?_eq_some_iff.1 hfirst.rule
  have hrule : rs.get ⟨i, hi⟩ = r := hr
  refine ⟨place ⟨i, hi⟩, ?_, hfirst.applies, ?_⟩
  · exact List.getElem?_eq_some_iff.2 ⟨(place ⟨i, hi⟩).isLt, (hrules ⟨i, hi⟩).trans hrule⟩
  · intro j' r' hr' happlies
    obtain ⟨hj', hget⟩ := List.getElem?_eq_some_iff.1 hr'
    obtain ⟨j, hj⟩ := place.surjective ⟨j', hj'⟩
    have hold : rs.get j = r' := by
      rw [← hrules j, hj]
      exact hget
    have hle := hfirst.least (j := j) (List.getElem?_eq_some_iff.2 ⟨j.isLt, hold⟩) happlies
    rw [Prod.Lex.toLex_le_toLex] at hle ⊢
    refine hle.imp_right fun ⟨heq, hij⟩ => ⟨heq, ?_⟩
    have hval : (place j).val = j' := congrArg Fin.val hj
    rcases Nat.lt_or_eq_of_le hij with hlt | hsame
    · have hplaces := hkept ⟨i, hi⟩ j hlt (by rw [hrule, hold]; exact heq)
      exact hval ▸ Nat.le_of_lt hplaces
    · obtain rfl : (⟨i, hi⟩ : Fin rs.length) = j := Fin.ext hsame
      exact Nat.le_of_eq hval

theorem Rearranges.mem (h : Rearranges rs rs') (hr : r ∈ rs') : r ∈ rs := by
  obtain ⟨place, hrules, -⟩ := h
  obtain ⟨j, rfl⟩ := List.get_of_mem hr
  obtain ⟨i, rfl⟩ := place.surjective j
  exact hrules i ▸ List.get_mem rs i

theorem applies_congr (h : r.enabled → ∀ c ∈ r.conditions, row c.column = row' c.column) :
    r.Applies row ↔ r.Applies row' := by
  refine and_congr_right fun henabled => forall₂_congr fun c hc => ?_
  rw [Condition.holds, Condition.holds, h henabled c hc]

/-- The rule that is least by priority and place decides, if any applies. Rules that are disabled,
the order of rules of different priorities and columns that no enabled rule names do not count. -/
theorem decided_by_first_match (s : RuleSet) (row : Row) :
    (∀ r, s.decide? row = some r ↔ ∃ i, FirstAt s.rules row i r) ∧
    (s.decide? row = none ↔ ∀ r ∈ s.rules, ¬ r.Applies row) ∧
    ∀ s' : RuleSet,
      (s'.rules.filter (·.enabled) = s.rules.filter (·.enabled) →
        s'.decide? row = s.decide? row) ∧
      (Rearranges s.rules s'.rules → s'.decide? row = s.decide? row) ∧
      ∀ row', (∀ r ∈ s.rules, r.enabled → ∀ c ∈ r.conditions, row c.column = row' c.column) →
        s.decide? row' = s.decide? row := by
  refine ⟨fun r => decide?_eq_some_iff, decide?_eq_none_iff, fun s' => ⟨fun h => ?_, fun h => ?_,
    fun row' h => ?_⟩⟩
  · rw [decide?, decide?, tried, tried, h]
  · exact decide?_eq_of_firstAt h.firstAt fun hnone r hr => hnone r (h.mem hr)
  · refine decide?_eq_of_firstAt (fun {i r} hfirst => ⟨i, hfirst.rule, ?_, ?_⟩) fun hnone r hr => ?_
    · exact (applies_congr (h r (List.mem_of_getElem? hfirst.rule))).1 hfirst.applies
    · intro j r' hr' happlies
      exact hfirst.least hr' ((applies_congr (h r' (List.mem_of_getElem? hr'))).2 happlies)
    · exact fun happlies => hnone r hr ((applies_congr (h r hr)).2 happlies)

namespace Tiers

def vip : Rule where
  id := "vip"
  priority := 1
  enabled := true
  conditions := [⟨"tier", .equals, "gold", none⟩]
  outputs := .empty

def fallback : Rule where
  id := "fallback"
  priority := 100
  enabled := true
  conditions := []
  outputs := .empty

def retired : Rule where
  id := "retired"
  priority := 0
  enabled := false
  conditions := []
  outputs := .empty

/-- Rules in another order than that of their priorities. -/
def ruleSet : RuleSet where
  id := "tiers"
  name := ""
  description := none
  rules := [fallback, vip, retired]

def gold : Row := fun column => if column = "tier" then some "Gold" else none

end Tiers

open Tiers in
theorem decided_by_first_match_tiers :
    ruleSet.decide? gold = some vip ∧
    { ruleSet with rules := [fallback, vip] }.decide? gold = ruleSet.decide? gold ∧
    { ruleSet with rules := [vip, fallback, retired] }.decide? gold = ruleSet.decide? gold ∧
    ruleSet.decide? (fun column => if column = "age" then some "18" else gold column) =
      ruleSet.decide? gold := by
  obtain ⟨hsome, -, hother⟩ := decided_by_first_match ruleSet gold
  refine ⟨(hsome vip).2 ⟨1, rfl, ⟨rfl, ?_⟩, ?_⟩, (hother _).1 rfl, (hother _).2.1 ?_,
    (hother ruleSet).2.2 _ ?_⟩
  · decide
  · intro j r' hr' happlies
    match j with
    | 0 =>
      obtain rfl := Option.some.inj hr'
      decide
    | 1 =>
      obtain rfl := Option.some.inj hr'
      decide
    | 2 =>
      obtain rfl := Option.some.inj hr'
      cases happlies.1
  · exact ⟨(Equiv.swap 0 1 : Fin 3 ≃ Fin 3), by decide, by decide⟩
  · decide

end RuleSet

end Casework
