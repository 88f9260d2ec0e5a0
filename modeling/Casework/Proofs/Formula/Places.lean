import Casework.Proofs.Decimal.Rounding

/-!
# The number of places

`round` is told by a decimal how many places to keep. What counts is the value of this decimal and
not its form: any whole number from 0 to 28 will do, however many zeros it has behind the point.
Only zero behind a minus sign is refused, although its value is zero.
-/

namespace Casework

namespace Decimal

variable {d e : Decimal} {digits : Fin 29}

/-- The value is a number of places: a whole number from 0 to 28. -/
def CountsPlaces (d : Decimal) : Prop := ∃ k : Nat, k ≤ 28 ∧ d.value = k

def IsMinusZero (d : Decimal) : Prop := d.negative = true ∧ d.value = 0

theorem value_nonpos (h : d.negative = true) : d.value ≤ 0 := by
  have hsigned : d.signed ≤ 0 := by
    rw [signed, if_pos h]
    omega
  exact div_nonpos_of_nonpos_of_nonneg (Int.cast_nonpos.2 hsigned) (cast_tenTo_pos d.scale).le

/-- Behind a minus sign there is no number of places but zero. -/
theorem CountsPlaces.eq_zero (h : d.CountsPlaces) (hsign : d.negative = true) : d.value = 0 := by
  obtain ⟨k, -, hk⟩ := h
  have hnonneg : 0 ≤ d.value := hk ▸ Nat.cast_nonneg k
  exact le_antisymm (value_nonpos hsign) hnonneg

theorem countsPlaces_of_digitCount? (h : d.digitCount? = some digits) :
    d.CountsPlaces ∧ ¬ d.IsMinusZero := by
  obtain ⟨hsign, hvalue⟩ := digitCount?_eq_some_iff.1 h
  refine ⟨⟨digits, Nat.le_of_lt_succ digits.isLt, hvalue⟩, ?_⟩
  intro hminus
  exact Bool.false_ne_true (hsign.symm.trans hminus.1)

theorem digitCount?_eq_none_iff : d.digitCount? = none ↔ ¬ d.CountsPlaces ∨ d.IsMinusZero := by
  constructor
  · intro hnone
    by_cases hcounts : d.CountsPlaces
    · refine .inr ?_
      cases hsign : d.negative with
      | true => exact ⟨hsign, hcounts.eq_zero hsign⟩
      | false =>
        obtain ⟨k, hk, hvalue⟩ := hcounts
        have hsome : d.digitCount? = some ⟨k, Nat.lt_succ_of_le hk⟩ :=
          digitCount?_eq_some_iff.2 ⟨hsign, hvalue⟩
        cases hnone.symm.trans hsome
    · exact .inl hcounts
  · intro hrefused
    cases hcount : d.digitCount? with
    | none => rfl
    | some digits =>
      obtain ⟨hcounts, hminus⟩ := countsPlaces_of_digitCount? hcount
      exact absurd hrefused (not_or.2 ⟨not_not.2 hcounts, hminus⟩)

/-- Two forms of one value say the same number of places, unless one of them is minus zero. -/
theorem digitCount?_congr (hvalue : e.value = d.value) (hminus : e.IsMinusZero ↔ d.IsMinusZero) :
    e.digitCount? = d.digitCount? := by
  have hcounts : e.CountsPlaces ↔ d.CountsPlaces := by rw [CountsPlaces, CountsPlaces, hvalue]
  cases hcount : d.digitCount? with
  | none => rwa [digitCount?_eq_none_iff, hcounts, hminus, ← digitCount?_eq_none_iff]
  | some digits =>
    obtain ⟨-, hd⟩ := digitCount?_eq_some_iff.1 hcount
    obtain ⟨hplaces, hplus⟩ := countsPlaces_of_digitCount? hcount
    refine digitCount?_eq_some_iff.2 ⟨?_, hvalue.trans hd⟩
    cases hsign : e.negative with
    | false => rfl
    | true => exact absurd (hminus.1 ⟨hsign, (hcounts.2 hplaces).eq_zero hsign⟩) hplus

end Decimal

namespace Formula

variable {a b : Expr} {x d : Decimal}

theorem Expr.eval_round_refused (ha : a.eval = .ok x) (hb : b.eval = .ok d)
    (hd : d.digitCount? = none) : (Expr.call .round [a, b]).eval = .error (.invalidDigits d) := by
  simp only [Expr.eval, Expr.evalAll, ha, hb]
  change Function.apply .round [x, d] = .error (.invalidDigits d)
  rw [Function.apply, hd]

/-- The number of places is refused just if its value is none or it is minus zero. Another form of
it, of the same value, is refused as well or leads to the same result; only minus zero must not take
the place of zero. -/
theorem round_refuses_iff (ha : a.eval = .ok x) (hb : b.eval = .ok d) :
    ((Expr.call .round [a, b]).eval = .error (.invalidDigits d) ↔
      ¬ d.CountsPlaces ∨ d.IsMinusZero) ∧
    ∀ (c : Expr) (e : Decimal), c.eval = .ok e → e.value = d.value →
      (e.IsMinusZero ↔ d.IsMinusZero) →
      (∃ r, (Expr.call .round [a, b]).eval = .ok r ∧ (Expr.call .round [a, c]).eval = .ok r) ∨
      (Expr.call .round [a, b]).eval = .error (.invalidDigits d) ∧
        (Expr.call .round [a, c]).eval = .error (.invalidDigits e) := by
  rw [← Decimal.digitCount?_eq_none_iff]
  cases hcount : d.digitCount? with
  | none =>
    have hrefused := Expr.eval_round_refused ha hb hcount
    refine ⟨⟨fun _ => rfl, fun _ => hrefused⟩, ?_⟩
    intro c e hc hvalue hminus
    have hcount' := (Decimal.digitCount?_congr hvalue hminus).trans hcount
    exact .inr ⟨hrefused, Expr.eval_round_refused ha hc hcount'⟩
  | some digits =>
    have hrounded := Expr.eval_round_digits ha hb hcount
    refine ⟨⟨fun hrefused => ?_, nofun⟩, ?_⟩
    · cases hrounded.symm.trans hrefused
    · intro c e hc hvalue hminus
      have hcount' := (Decimal.digitCount?_congr hvalue hminus).trans hcount
      exact .inl ⟨_, hrounded, Expr.eval_round_digits ha hc hcount'⟩

/-- Two places in two forms, and half a place. -/
theorem round_refuses_iff_two :
    (∃ r : Decimal,
      (Expr.call .round [.number ⟨false, 2345, 3, by decide, by decide⟩,
        .number ⟨false, 2, 0, by decide, by decide⟩]).eval = .ok r ∧
      (Expr.call .round [.number ⟨false, 2345, 3, by decide, by decide⟩,
        .number ⟨false, 200, 2, by decide, by decide⟩]).eval = .ok r) ∧
    (Expr.call .round [.number ⟨false, 2345, 3, by decide, by decide⟩,
      .number ⟨false, 5, 1, by decide, by decide⟩]).eval =
        .error (.invalidDigits ⟨false, 5, 1, by decide, by decide⟩) := by
  have htwo : (⟨false, 200, 2, by decide, by decide⟩ : Decimal).value =
      (⟨false, 2, 0, by decide, by decide⟩ : Decimal).value := by
    norm_num [Decimal.value, Decimal.signed]
  have hplus : (⟨false, 200, 2, by decide, by decide⟩ : Decimal).IsMinusZero ↔
      (⟨false, 2, 0, by decide, by decide⟩ : Decimal).IsMinusZero :=
    iff_of_false (fun h => Bool.false_ne_true h.1) (fun h => Bool.false_ne_true h.1)
  constructor
  · have hsame := (round_refuses_iff (a := .number ⟨false, 2345, 3, by decide, by decide⟩)
      (b := .number _) rfl rfl).2 (.number _) _ rfl htwo hplus
    refine hsame.resolve_right ?_
    intro hrefused
    cases hrefused.1
  · refine (round_refuses_iff (a := .number _) (b := .number _) rfl rfl).1.2 (.inl ?_)
    intro hcounts
    obtain ⟨k, -, hk⟩ := hcounts
    have hhalf : (⟨false, 5, 1, by decide, by decide⟩ : Decimal).value = 1 / 2 := by
      norm_num [Decimal.value, Decimal.signed]
    have htwice : (2 : ℚ) * k = 1 := by linarith
    have htwice' : 2 * k = 1 := by exact_mod_cast htwice
    omega

/-- Zero places are a number of places, but minus zero places are refused. -/
theorem round_refuses_minusZero :
    (Expr.call .round [.number ⟨false, 15, 1, by decide, by decide⟩, .number .zero]).eval =
        .ok ⟨false, 2, 0, by decide, by decide⟩ ∧
      (Expr.call .round [.number ⟨false, 15, 1, by decide, by decide⟩,
        .negate (.number .zero)]).eval = .error (.invalidDigits Decimal.zero.neg) ∧
      Decimal.zero.neg.value = Decimal.zero.value ∧ Decimal.zero.neg.CountsPlaces := by
  refine ⟨rfl, rfl, ?_, 0, Nat.zero_le _, ?_⟩
  · norm_num [Decimal.value, Decimal.signed, Decimal.zero, Decimal.neg]
  · norm_num [Decimal.value, Decimal.signed, Decimal.zero, Decimal.neg]

end Formula

end Casework
