import Mathlib.Algebra.Order.Field.Basic
import Mathlib.Algebra.Order.Group.Abs
import Mathlib.Data.Rat.Cast.Order
import Mathlib.Tactic.FieldSimp
import Mathlib.Tactic.Linarith
import Mathlib.Tactic.NormNum
import Mathlib.Tactic.Ring
import Casework.Formula.Evaluate
import Casework.Proofs.Decimal.Numeral

/-!
# Rounding

A decimal is rounded to the nearest one with so many places, a half away from zero. This determines
the value that it is rounded to, so that rounding keeps the order and turns round with the sign. In
a formula the number of places is any whole number from 0 to 28, in whatever form, but without a
minus sign.
-/

namespace Casework

theorem cast_tenTo_pos (n : Nat) : (0 : ℚ) < tenTo n := Nat.cast_pos.2 (Decimal.tenTo_pos n)

/-- The multiple of `1 / 10 ^ places` that is nearest to `x`; of two, the one further from zero. -/
structure RoundsTo (places : Nat) (x r : ℚ) : Prop where
  whole : ∃ m : ℤ, r = m / tenTo places
  near : |r - x| ≤ 1 / (2 * tenTo places)
  away : |r - x| = 1 / (2 * tenTo places) → |x| < |r|

namespace RoundsTo

variable {places : Nat} {x y r s : ℚ}

theorem half_pos (places : Nat) : (0 : ℚ) < 1 / (2 * tenTo places) :=
  one_div_pos.2 (mul_pos two_pos (cast_tenTo_pos places))

theorem self (h : ∃ m : ℤ, x = m / tenTo places) : RoundsTo places x x := by
  have hpos := half_pos places
  have hzero : |x - x| = 0 := by rw [sub_self, abs_zero]
  exact ⟨h, hzero.trans_le hpos.le, fun heq => absurd (hzero.symm.trans heq) hpos.ne⟩

theorem neg (h : RoundsTo places x r) : RoundsTo places (-x) (-r) := by
  have habs : |-r - -x| = |r - x| := by rw [neg_sub_neg, abs_sub_comm]
  obtain ⟨m, hm⟩ := h.whole
  refine ⟨⟨-m, ?_⟩, habs.trans_le h.near, fun heq => ?_⟩
  · rw [hm, Int.cast_neg, neg_div]
  · rw [abs_neg, abs_neg]
    exact h.away (habs.symm.trans heq)

/-- Two neighbours cannot both be further from zero than the point half way between them. -/
theorem not_between {h : ℚ} {n : ℤ} (hpos : 0 < h) (hlow : x - h = n * (2 * h))
    (hless : |x| < |x - h|) (hmore : |x| < |x + h|) : False := by
  have hneg : x - h < 0 := by
    by_contra hle
    have hx : 0 ≤ x - h := not_lt.1 hle
    rw [abs_of_nonneg hx] at hless
    linarith [le_abs_self x]
  have hstep : n ≤ -1 := by
    have hn : (n : ℚ) * (2 * h) < 0 := hlow.symm.trans_lt hneg
    have hn' : (n : ℚ) < 0 := by
      by_contra hle
      exact absurd hn (not_lt.2 (mul_nonneg (not_lt.1 hle) (by linarith)))
    have : n < 0 := by exact_mod_cast hn'
    omega
  have hstep' : (n : ℚ) ≤ -1 := by exact_mod_cast hstep
  have hnext : x + h ≤ 0 := by nlinarith
  rw [abs_of_nonpos hnext] at hmore
  linarith [neg_abs_le x]

/-- What is rounded to a smaller number is smaller. -/
theorem mono (hr : RoundsTo places x r) (hs : RoundsTo places y s) (hle : x ≤ y) : r ≤ s := by
  by_contra hlt
  have hlt := not_le.1 hlt
  obtain ⟨m, hm⟩ := hr.whole
  obtain ⟨n, hn⟩ := hs.whole
  have hten := cast_tenTo_pos places
  have hpos := half_pos places
  have hunit : 1 / (tenTo places : ℚ) = 2 * (1 / (2 * tenTo places)) := by
    field_simp
  have hr' := abs_le.1 hr.near
  have hs' := abs_le.1 hs.near
  have hraway := hr.away
  have hsaway := hs.away
  generalize (1 : ℚ) / (2 * tenTo places) = h at *
  have hgap : s + 2 * h ≤ r := by
    have hnm : n + 1 ≤ m := by
      rw [hm, hn, div_lt_div_iff_of_pos_right hten] at hlt
      exact_mod_cast hlt
    have hnm' : (n : ℚ) + 1 ≤ m := by exact_mod_cast hnm
    have hdiv := div_le_div_of_nonneg_right hnm' hten.le
    rwa [add_div, hunit, ← hn, ← hm] at hdiv
  -- No distance is left to spare: both are half a step away, on the two sides of one number.
  obtain rfl : x = y := by linarith [hr'.2, hs'.1]
  obtain rfl : r = x + h := by linarith [hr'.2, hs'.1]
  obtain rfl : s = x - h := by linarith [hs'.1]
  refine not_between (n := n) hpos ?_ (hsaway ?_) (hraway ?_)
  · rw [hn, ← hunit, mul_one_div]
  · rw [sub_sub_cancel_left, abs_neg, abs_of_pos hpos]
  · rw [add_sub_cancel_left, abs_of_pos hpos]

theorem unique (hr : RoundsTo places x r) (hs : RoundsTo places x s) : r = s :=
  le_antisymm (hr.mono hs le_rfl) (hs.mono hr le_rfl)

end RoundsTo

namespace Decimal

variable {d : Decimal} {digits : Fin 29} {n t : Nat}

/-! ### Values -/

theorem value_neg (d : Decimal) : d.neg.value = -d.value := by
  have hsigned : d.neg.signed = -d.signed := by
    obtain ⟨negative, m, s, hm, hs⟩ := d
    cases negative with
    | false => rfl
    | true => exact (Int.neg_neg _).symm
  rw [value, value, hsigned, Int.cast_neg, neg_div]
  rfl

/-- A decimal is a multiple of any finer unit than that of its last place. -/
theorem value_whole (h : d.scale ≤ n) : ∃ m : ℤ, d.value = m / tenTo n := by
  obtain ⟨j, rfl⟩ := Nat.exists_eq_add_of_le h
  have hs := (cast_tenTo_pos d.scale).ne'
  have hj := (cast_tenTo_pos j).ne'
  refine ⟨d.signed * tenTo j, ?_⟩
  rw [value, tenTo_add, Nat.cast_mul, Int.cast_mul, Int.cast_natCast, mul_div_mul_right _ _ hj]

/-! ### The nearest decimal -/

theorem divHalfUp_bounds (n : Nat) (ht : 0 < t) :
    2 * (divHalfUp n t * t) ≤ 2 * n + t ∧ 2 * n < 2 * (divHalfUp n t * t) + t := by
  have hdiv := Nat.div_add_mod (2 * n + t) (2 * t)
  have hmod := Nat.mod_lt (2 * n + t) (Nat.mul_pos two_pos ht)
  rw [← divHalfUp, Nat.mul_assoc, Nat.mul_comm t] at hdiv
  constructor <;> omega

theorem roundsTo_divHalfUp (m n j : Nat) :
    RoundsTo n (m / tenTo (n + j)) ((divHalfUp m (tenTo j) : Nat) / tenTo n) := by
  have hn := tenTo_pos n
  have hj := tenTo_pos j
  obtain ⟨hhigh, hlow⟩ := divHalfUp_bounds m hj
  generalize divHalfUp m (tenTo j) = q at *
  refine ⟨⟨q, by rw [Int.cast_natCast]⟩, ?_, fun heq => ?_⟩
  · refine abs_sub_le_half hn (tenTo_pos _) ?_ ?_
    · rw [tenTo_add]
      nlinarith
    · rw [tenTo_add]
      nlinarith
  · -- A half is rounded up, so that the distance to a smaller number is less than that.
    have hn' := cast_tenTo_pos n
    have hj' := cast_tenTo_pos j
    have hm' : (0 : ℚ) ≤ m := Nat.cast_nonneg m
    have hlow' : (2 * m : ℚ) < 2 * (q * tenTo j) + tenTo j := by exact_mod_cast hlow
    rw [tenTo_add, Nat.cast_mul] at heq ⊢
    have hx : (0 : ℚ) ≤ m / (tenTo n * tenTo j) := by positivity
    have hr : (0 : ℚ) ≤ q / tenTo n := by positivity
    rw [abs_of_nonneg hx, abs_of_nonneg hr]
    by_contra hle
    rw [abs_of_nonpos (by linarith [not_lt.1 hle])] at heq
    field_simp at heq
    nlinarith

theorem round_signed (h : ¬ d.scale ≤ digits) : (d.round digits).signed =
    if d.negative then -(divHalfUp d.mantissa (tenTo (d.scale - digits)) : Int)
    else divHalfUp d.mantissa (tenTo (d.scale - digits)) := by
  rw [round, if_neg h, signed]
  cases d.negative with
  | false => rfl
  | true =>
    -- Only a magnitude of zero loses its sign.
    simpa using fun hzero _ => hzero

/-- By magnitudes: what is rounded keeps its sign. -/
theorem round_roundsTo (d : Decimal) (digits : Fin 29) :
    RoundsTo digits d.value (d.round digits).value := by
  by_cases hscale : d.scale ≤ digits
  · rw [round, if_pos hscale]
    exact .self (value_whole hscale)
  · obtain ⟨j, hj⟩ := Nat.exists_eq_add_of_le (Nat.le_of_not_le hscale)
    have hmagnitude := roundsTo_divHalfUp d.mantissa digits j
    obtain rfl : d.scale - digits = j := by omega
    rw [← hj] at hmagnitude
    have hplaces : (d.round digits).scale = digits := by rw [round, if_neg hscale]
    rw [value, value, hplaces, round_signed hscale, signed]
    cases d.negative with
    | false => exact hmagnitude
    | true =>
      simp only [if_true, Int.cast_neg, Int.cast_natCast, neg_div]
      exact hmagnitude.neg

theorem round_neg_value (d : Decimal) (digits : Fin 29) :
    (d.neg.round digits).value = -(d.round digits).value := by
  have hneg := d.neg.round_roundsTo digits
  rw [value_neg] at hneg
  exact hneg.unique (d.round_roundsTo digits).neg

theorem round_value_mono {a b : Decimal} (digits : Fin 29) (h : a.value ≤ b.value) :
    (a.round digits).value ≤ (b.round digits).value :=
  (a.round_roundsTo digits).mono (b.round_roundsTo digits) h

theorem round_scale_le (d : Decimal) (digits : Fin 29) : (d.round digits).scale ≤ digits := by
  rw [round]
  split
  · assumption
  · exact le_rfl

/-- Nothing is left to round. -/
theorem round_round (d : Decimal) (digits : Fin 29) :
    (d.round digits).round digits = d.round digits :=
  if_pos (d.round_scale_le digits)

/-! ### The number of places -/

theorem value_eq_natCast_iff (h : d.negative = false) :
    d.value = n ↔ d.mantissa = n * tenTo d.scale := by
  have hten := (cast_tenTo_pos d.scale).ne'
  rw [value, signed, h, if_neg Bool.false_ne_true, div_eq_iff hten]
  exact_mod_cast Iff.rfl

/-- The digits are counted by the value, whatever its form. -/
theorem digitCount?_eq_some_iff :
    d.digitCount? = some digits ↔ d.negative = false ∧ d.value = (digits : Nat) := by
  rw [digitCount?]
  constructor
  · intro h
    split at h
    · cases h
    · rename_i hguard
      rw [Bool.or_eq_true, not_or, Bool.not_eq_true, bne_iff_ne, not_not] at hguard
      obtain ⟨hsign, hmod⟩ := hguard
      obtain ⟨hlt, hdigits⟩ := Option.dite_none_right_eq_some.1 h
      rw [← Option.some.inj hdigits]
      exact ⟨hsign, (value_eq_natCast_iff hsign).2
        (Nat.div_mul_cancel (Nat.dvd_of_mod_eq_zero hmod)).symm⟩
  · rintro ⟨hsign, hvalue⟩
    have hmantissa := (value_eq_natCast_iff hsign).1 hvalue
    have hmod : d.mantissa % tenTo d.scale = 0 := by
      rw [hmantissa]
      exact Nat.mul_mod_left _ _
    have hdiv : d.mantissa / tenTo d.scale = digits := by
      rw [hmantissa]
      exact Nat.mul_div_cancel _ (tenTo_pos _)
    simp only [hsign, hmod, hdiv, bne_self_eq_false, Bool.or_self, Bool.false_eq_true, if_false]
    exact dif_pos digits.isLt

end Decimal

namespace Formula

variable {a b : Expr} {x d : Decimal} {digits : Fin 29} {k : Nat}

/-! ### Rounding in a formula -/

theorem Expr.eval_negate (ha : a.eval = .ok x) : (Expr.negate a).eval = .ok x.neg := by
  rw [Expr.eval, ha]
  rfl

theorem Expr.eval_round (ha : a.eval = .ok x) :
    (Expr.call .round [a]).eval = .ok (x.round 0) := by
  simp only [Expr.eval, Expr.evalAll, ha]
  rfl

theorem Expr.eval_round_digits (ha : a.eval = .ok x) (hb : b.eval = .ok d)
    (hd : d.digitCount? = some digits) :
    (Expr.call .round [a, b]).eval = .ok (x.round digits) := by
  simp only [Expr.eval, Expr.evalAll, ha, hb]
  change Function.apply .round [x, d] = .ok (x.round digits)
  rw [Function.apply, hd]

/-- `round` with `k` places: the nearest multiple of `1 / 10 ^ k`, a half away from zero. It turns
round with the sign, keeps the order, changes nothing the second time, and without a number of
places it is that for zero. -/
theorem round_eval_nearest (ha : a.eval = .ok x) (hb : b.eval = .ok d) (hsign : d.negative = false)
    (hd : d.value = k) (hk : k ≤ 28) :
    ∃ r : Decimal, (Expr.call .round [a, b]).eval = .ok r ∧ RoundsTo k x.value r.value ∧
      (∃ r' : Decimal, (Expr.call .round [.negate a, b]).eval = .ok r' ∧ r'.value = -r.value) ∧
      (∀ (c : Expr) (y : Decimal), c.eval = .ok y → x.value ≤ y.value →
        ∃ s : Decimal, (Expr.call .round [c, b]).eval = .ok s ∧ r.value ≤ s.value) ∧
      (∀ c : Expr, c.eval = .ok r → (Expr.call .round [c, b]).eval = .ok r) ∧
      (k = 0 → (Expr.call .round [a]).eval = .ok r) := by
  have hdigits : d.digitCount? = some ⟨k, Nat.lt_succ_of_le hk⟩ :=
    Decimal.digitCount?_eq_some_iff.2 ⟨hsign, hd⟩
  refine ⟨_, Expr.eval_round_digits ha hb hdigits, x.round_roundsTo ⟨k, _⟩,
    ⟨_, Expr.eval_round_digits (Expr.eval_negate ha) hb hdigits, x.round_neg_value _⟩,
    fun c y hc hle => ⟨_, Expr.eval_round_digits hc hb hdigits, Decimal.round_value_mono _ hle⟩,
    fun c hc => ?_, fun hzero => ?_⟩
  · rw [Expr.eval_round_digits hc hb hdigits, Decimal.round_round]
  · subst hzero
    exact Expr.eval_round ha

/-- Minus two and a half is rounded to minus three, with no places in whatever form. -/
theorem round_eval_nearest_half :
    ∃ r : Decimal,
      (Expr.call .round [.number ⟨true, 25, 1, by decide, by decide⟩,
        .number ⟨false, 0, 2, by decide, by decide⟩]).eval = .ok r ∧
      (Expr.call .round [.number ⟨true, 25, 1, by decide, by decide⟩]).eval = .ok r ∧
      RoundsTo 0 (-5 / 2) r.value ∧ r.value = -3 := by
  have hx : (⟨true, 25, 1, by decide, by decide⟩ : Decimal).value = -5 / 2 := by
    norm_num [Decimal.value, Decimal.signed]
  have hzero : (⟨false, 0, 2, by decide, by decide⟩ : Decimal).value = (0 : Nat) := by
    norm_num [Decimal.value, Decimal.signed]
  obtain ⟨r, hr, hrounds, -, -, -, hone⟩ :=
    round_eval_nearest (a := .number _) (b := .number _) rfl rfl rfl hzero (Nat.zero_le 28)
  rw [hx] at hrounds
  refine ⟨r, hr, hone rfl, hrounds, ?_⟩
  cases hr
  norm_num [Decimal.value, Decimal.signed, Decimal.round, Decimal.divHalfUp, Decimal.isZero]

end Formula

end Casework
