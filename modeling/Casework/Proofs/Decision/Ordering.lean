import Casework.Decision.Evaluate
import Mathlib.Algebra.Order.Field.Basic
import Mathlib.Data.Rat.Cast.Order
import Mathlib.Data.String.Basic
import Mathlib.Order.Compare
import Mathlib.Tactic.NormNum

/-!
# Comparisons keep an order

Two cells that are numbers are compared by their values, any others by their characters. Both are
linear orders, so that the operators of an order agree with each other on any cell: they are all
read off one comparison. Only between numbers and other texts there is no order that carries from
one value to the next.
-/

namespace Casework

namespace Decimal

/-- The number itself, whatever the form. -/
def value (d : Decimal) : ℚ := d.signed / tenTo d.scale

theorem value_lt_value_iff {a b : Decimal} :
    a.value < b.value ↔ a.signed * tenTo b.scale < b.signed * tenTo a.scale := by
  have ha : (0 : ℚ) < tenTo a.scale := Nat.cast_pos.2 (Nat.pow_pos (by decide))
  have hb : (0 : ℚ) < tenTo b.scale := Nat.cast_pos.2 (Nat.pow_pos (by decide))
  rw [value, value, div_lt_div_iff₀ ha hb]
  exact_mod_cast Iff.rfl

/-- Decimals are compared by their values. -/
theorem compareValue_eq_compare (a b : Decimal) : compareValue a b = compare a.value b.value := by
  rw [compareValue]
  rcases lt_trichotomy a.value b.value with h | h | h
  · rw [compare_lt_iff_lt.2 h, compare_lt_iff_lt.2 (value_lt_value_iff.1 h)]
  · have hlt := mt value_lt_value_iff.2 h.not_lt
    have hgt := mt value_lt_value_iff.2 h.not_gt
    rw [compare_eq_iff_eq.2 h, compare_eq_iff_eq.2 (by omega)]
  · rw [compare_gt_iff_gt.2 h, compare_gt_iff_gt.2 (value_lt_value_iff.1 h)]

end Decimal

namespace Condition

variable {x x' v v' w : String} {high high' : Option String} {op : Operator} {row row' : Row}
  {column column' : String}

/-! ### The order of two texts -/

/-- By value if both are numbers, otherwise by characters. -/
@[irreducible]
def Below (s t : String) : Prop :=
  match number? s, number? t with
  | some a, some b => a.value < b.value
  | _, _ => s < t

/-- The first is not above the second. -/
@[irreducible]
def AtMost (s t : String) : Prop :=
  match number? s, number? t with
  | some a, some b => a.value ≤ b.value
  | _, _ => s ≤ t

/-- All three are numbers, or none of them is. -/
def OfOneKind (x v w : String) : Prop :=
  (∀ s ∈ [x, v, w], (number? s).isSome) ∨ ∀ s ∈ [x, v, w], number? s = none

/-- Two ways to write one number. -/
def SameNumber (s t : String) : Prop :=
  ∃ a b, number? s = some a ∧ number? t = some b ∧ a.value = b.value

theorem compareCells_of_numbers {a b : Decimal} (ha : number? x = some a)
    (hb : number? v = some b) : compareCells x v = compare a.value b.value := by
  simp only [compareCells, ha, hb, Decimal.compareValue_eq_compare]

theorem compareCells_eq_lt_iff : compareCells x v = .lt ↔ Below x v := by
  rw [compareCells, Below]
  cases number? x <;> cases number? v
  case some.some => simp only [Decimal.compareValue_eq_compare, compare_lt_iff_lt]
  all_goals exact compare_lt_iff_lt

theorem compareCells_eq_gt_iff : compareCells x v = .gt ↔ Below v x := by
  rw [compareCells, Below]
  cases number? x <;> cases number? v
  case some.some => simp only [Decimal.compareValue_eq_compare, compare_gt_iff_gt]
  all_goals exact compare_gt_iff_gt

theorem not_below_iff : ¬ Below v x ↔ AtMost x v := by
  rw [Below, AtMost]
  cases number? x <;> cases number? v
  case some.some => exact not_lt
  all_goals exact not_lt

theorem Below.asymm (h : Below x v) : ¬ Below v x := by
  rw [← compareCells_eq_lt_iff] at h
  rw [← compareCells_eq_gt_iff, h]
  decide

theorem OfOneKind.trans (hkind : OfOneKind x v w) (hxv : AtMost x v) (hvw : AtMost v w) :
    AtMost x w := by
  rcases hkind with hsome | hnone
  · obtain ⟨a, ha⟩ := Option.isSome_iff_exists.1 (hsome x (by simp))
    obtain ⟨b, hb⟩ := Option.isSome_iff_exists.1 (hsome v (by simp))
    obtain ⟨c, hc⟩ := Option.isSome_iff_exists.1 (hsome w (by simp))
    simp only [AtMost, ha, hb, hc] at *
    exact hxv.trans hvw
  · have hx := hnone x (by simp)
    have hv := hnone v (by simp)
    have hw := hnone w (by simp)
    simp only [AtMost, hx, hv, hw] at *
    exact hxv.trans hvw

theorem OfOneKind.mono {r s t : String} (hkind : OfOneKind x v w) (hsub : [r, s, t] ⊆ [x, v, w]) :
    OfOneKind r s t :=
  hkind.imp (fun h u hu => h u (hsub hu)) fun h u hu => h u (hsub hu)

/-- What is compared are the values alone. -/
theorem compareCells_congr (hx : SameNumber x x') (hv : SameNumber v v') :
    compareCells x v = compareCells x' v' := by
  obtain ⟨a, a', ha, ha', haa'⟩ := hx
  obtain ⟨b, b', hb, hb', hbb'⟩ := hv
  rw [compareCells_of_numbers ha hb, compareCells_of_numbers ha' hb', haa', hbb']

/-! ### The operators -/

/-- The condition on the column holds of the row. -/
def Tests (row : Row) (column : String) (op : Operator) (v : String) (high : Option String) :
    Prop :=
  (⟨column, op, v, high⟩ : Condition).holds row

/-- The operators that go by an order. -/
def orderings : List Operator :=
  [.lessThan, .greaterThan, .lessThanOrEqual, .greaterThanOrEqual, .between]

/-- One of the three holds, and the other two do not. -/
def OneOf (p q r : Prop) : Prop := (p ∧ ¬ q ∧ ¬ r) ∨ (¬ p ∧ q ∧ ¬ r) ∨ (¬ p ∧ ¬ q ∧ r)

theorem oneOf_of_not_and {p q : Prop} (h : p → ¬ q) : OneOf p q (¬ q ∧ ¬ p) := by
  rw [OneOf]
  tauto

section

variable (hx : row column = some x)

include hx

theorem tests_iff : Tests row column op v high ↔ (⟨column, op, v, high⟩ : Condition).holdsOf x := by
  rw [Tests, holds, hx]

theorem tests_lessThan : Tests row column .lessThan v high ↔ Below x v := by
  rw [tests_iff hx, holdsOf, beq_iff_eq, compareCells_eq_lt_iff]

theorem tests_greaterThan : Tests row column .greaterThan v high ↔ Below v x := by
  rw [tests_iff hx, holdsOf, beq_iff_eq, compareCells_eq_gt_iff]

theorem tests_lessThanOrEqual : Tests row column .lessThanOrEqual v high ↔ AtMost x v := by
  rw [tests_iff hx, holdsOf, bne_iff_ne, ne_eq, compareCells_eq_gt_iff, not_below_iff]

theorem tests_greaterThanOrEqual : Tests row column .greaterThanOrEqual v high ↔ AtMost v x := by
  rw [tests_iff hx, holdsOf, bne_iff_ne, ne_eq, compareCells_eq_lt_iff, not_below_iff]

theorem tests_between : Tests row column .between v (some w) ↔ AtMost v x ∧ AtMost x w := by
  rw [tests_iff hx, holdsOf, Bool.and_eq_true, bne_iff_ne, bne_iff_ne, ne_eq, ne_eq,
    compareCells_eq_lt_iff, compareCells_eq_gt_iff, not_below_iff, not_below_iff]

/-- The upper bound is that of `between` alone. -/
theorem tests_bound (hop : op ≠ .between) :
    Tests row column op v high ↔ Tests row column op v none := by
  rw [tests_iff hx, tests_iff hx]
  cases op
  case between => exact absurd rfl hop
  all_goals simp only [holdsOf]

theorem not_tests_between_none : ¬ Tests row column .between v none := by
  rw [tests_iff hx, holdsOf]
  exact Bool.false_ne_true

end

/-- Of a column that is missing nothing holds that goes by an order. -/
theorem not_tests_of_missing (hrow : row column = none) (hop : op ∈ orderings) :
    ¬ Tests row column op v high := by
  rw [Tests, holds, hrow]
  have hne : op ≠ .isEmpty := by
    rintro rfl
    exact absurd hop (by decide)
  simpa using hne

/-- The operators of an order agree with each other on a cell. -/
structure Orders (row : Row) (column x : String) : Prop where
  below : ∀ v high, Tests row column .lessThan v high ↔ Below x v
  atMost : ∀ v high, Tests row column .lessThanOrEqual v high ↔ AtMost x v
  trichotomy : ∀ v high, OneOf (Tests row column .lessThan v high)
    (Tests row column .greaterThan v high)
    (Tests row column .lessThanOrEqual v high ∧ Tests row column .greaterThanOrEqual v high)
  lessThanOrEqual : ∀ v high,
    Tests row column .lessThanOrEqual v high ↔ ¬ Tests row column .greaterThan v high
  greaterThanOrEqual : ∀ v high,
    Tests row column .greaterThanOrEqual v high ↔ ¬ Tests row column .lessThan v high
  between : ∀ v w, Tests row column .between v (some w) ↔
    Tests row column .greaterThanOrEqual v none ∧ Tests row column .lessThanOrEqual w none
  not_between : ∀ v, ¬ Tests row column .between v none
  bound : ∀ op ∈ orderings, op ≠ .between → ∀ v high,
    Tests row column op v high ↔ Tests row column op v none
  upper : ∀ v w, OfOneKind x v w → AtMost v w →
    Tests row column .lessThanOrEqual v none → Tests row column .lessThanOrEqual w none
  lower : ∀ v w, OfOneKind x v w → AtMost v w →
    Tests row column .greaterThanOrEqual w none → Tests row column .greaterThanOrEqual v none
  not_between_reversed : ∀ v w, OfOneKind x v w → Below w v →
    ¬ Tests row column .between v (some w)

theorem orders_of_cell (hx : row column = some x) : Orders row column x where
  below v high := tests_lessThan hx
  atMost v high := tests_lessThanOrEqual hx
  trichotomy v high := by
    rw [tests_lessThan hx, tests_greaterThan hx, tests_lessThanOrEqual hx,
      tests_greaterThanOrEqual hx, ← not_below_iff, ← not_below_iff]
    exact oneOf_of_not_and Below.asymm
  lessThanOrEqual v high := by
    rw [tests_lessThanOrEqual hx, tests_greaterThan hx, not_below_iff]
  greaterThanOrEqual v high := by
    rw [tests_greaterThanOrEqual hx, tests_lessThan hx, not_below_iff]
  between v w := by
    rw [tests_between hx, tests_greaterThanOrEqual hx, tests_lessThanOrEqual hx]
  not_between v := not_tests_between_none hx
  bound op _ hne v high := tests_bound hx hne
  upper v w hkind hvw hxv := by
    rw [tests_lessThanOrEqual hx] at hxv ⊢
    exact hkind.trans hxv hvw
  lower v w hkind hvw hwx := by
    rw [tests_greaterThanOrEqual hx] at hwx ⊢
    exact (hkind.mono (by simp)).trans hvw hwx
  not_between_reversed v w hkind hwv hbetween := by
    obtain ⟨hvx, hxw⟩ := (tests_between hx).1 hbetween
    have hvw : AtMost v w := OfOneKind.trans (hkind.mono (by simp)) hvx hxw
    exact not_below_iff.2 hvw hwv

/-- How a number is written makes no difference. -/
theorem tests_congr (hx : row column = some x) (hx' : row' column' = some x')
    (hxx' : SameNumber x x') (hvv' : SameNumber v v') (hhigh : Option.Rel SameNumber high high')
    (hop : op ∈ orderings) :
    Tests row column op v high ↔ Tests row' column' op v' high' := by
  rw [tests_iff hx, tests_iff hx']
  have hv := compareCells_congr hxx' hvv'
  have hbetween : (⟨column, .between, v, high⟩ : Condition).holdsOf x =
      (⟨column', .between, v', high'⟩ : Condition).holdsOf x' := by
    cases hhigh with
    | none => rfl
    | some hww' => simp only [holdsOf, hv, compareCells_congr hxx' hww']
  cases op
  case between => rw [hbetween]
  case lessThan | greaterThan | lessThanOrEqual | greaterThanOrEqual => simp only [holdsOf, hv]
  all_goals exact absurd hop (by decide)

/-- On a cell that is there the operators agree on one order, which for numbers is that of their
values. On a column that is missing none of them holds. -/
theorem orderings_agree (row : Row) (column : String) :
    (∀ x, row column = some x → Orders row column x) ∧
    (∀ (row' : Row) (column' x x' v v' : String) (high high' : Option String),
      row column = some x → row' column' = some x' → SameNumber x x' → SameNumber v v' →
      Option.Rel SameNumber high high' → ∀ op ∈ orderings,
        (Tests row column op v high ↔ Tests row' column' op v' high')) ∧
    (row column = none → ∀ op ∈ orderings, ∀ v high, ¬ Tests row column op v high) := by
  refine ⟨fun x hx => orders_of_cell hx, ?_, fun hrow op hop _ _ => not_tests_of_missing hrow hop⟩
  intro row' column' x x' v v' high high' hx hx' hxx' hvv' hhigh op hop
  exact tests_congr hx hx' hxx' hvv' hhigh hop

/-- A row with one cell. -/
def ageRow (age : String) : Row := fun column => if column = "age" then some age else none

theorem sameNumber_eighteen : SameNumber "18" " 18.00 " ∧ SameNumber "18" "1.8e1" := by
  have heighteen : number? "18" = some ⟨false, 18, 0, by decide, by decide⟩ := rfl
  refine ⟨⟨_, ⟨false, 1800, 2, by decide, by decide⟩, heighteen, rfl, ?_⟩,
    ⟨_, ⟨false, 18, 0, by decide, by decide⟩, heighteen, rfl, rfl⟩⟩
  norm_num [Decimal.value, Decimal.signed]

theorem atMost_twenty : AtMost "18.5" "20" := by
  have hlow : number? "18.5" = some ⟨false, 185, 1, by decide, by decide⟩ := rfl
  have hhigh : number? "20" = some ⟨false, 20, 0, by decide, by decide⟩ := rfl
  simp only [AtMost, hlow, hhigh]
  norm_num [Decimal.value, Decimal.signed]

theorem orderings_agree_eighteen :
    (Tests (ageRow "18") "age" .between "18" (some "18") ↔
      Tests (ageRow " 18.00 ") "age" .between "1.8e1" (some " 18.00 ")) ∧
    (Tests (ageRow "18") "age" .lessThanOrEqual "18.5" none →
      Tests (ageRow "18") "age" .lessThanOrEqual "20" none) ∧
    ¬ Tests (ageRow "18") "name" .lessThan "20" none := by
  obtain ⟨hforms, hscientific⟩ := sameNumber_eighteen
  obtain ⟨horders, hsame, -⟩ := orderings_agree (ageRow "18") "age"
  obtain ⟨-, -, hmissing⟩ := orderings_agree (ageRow "18") "name"
  refine ⟨hsame _ _ _ _ _ _ _ _ rfl rfl hforms hscientific (.some hforms) _ (by decide), ?_,
    hmissing rfl _ (by decide) _ _⟩
  exact (horders "18" rfl).upper "18.5" "20" (.inl (by decide)) atMost_twenty

end Condition

end Casework
