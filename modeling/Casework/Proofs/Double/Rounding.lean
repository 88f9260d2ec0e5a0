import Casework.Double.Basic
import Mathlib.Algebra.Order.Field.Power
import Mathlib.Data.Rat.Cast.Order
import Mathlib.Tactic.FieldSimp
import Mathlib.Tactic.Linarith
import Mathlib.Tactic.NormNum
import Mathlib.Tactic.Positivity
import Mathlib.Tactic.Ring

/-!
# Rounding to a double

A double is nearest to a quotient on the grid of its exponent, so that it is at most half a step of
this grid away. In proportion to the quotient that is one part in 2^53, as long as the quotient is
not so small that the mantissa has fewer bits. Only a quotient that is larger than all doubles
by half a step at least is rounded to infinity.
-/

namespace Casework

/-! ### Powers as rational numbers -/

theorem cast_twoTo (n : Nat) : (twoTo n : ℚ) = 2 ^ n := Nat.cast_pow 2 n

theorem cast_tenTo (n : Nat) : (tenTo n : ℚ) = 10 ^ n := Nat.cast_pow 10 n

/-- A power is the quotient of two whole ones, one of which is one. -/
theorem pow_toNat_div (b : ℚ) (e : Int) : b ^ e.toNat / b ^ (-e).toNat = b ^ e := by
  rcases Int.le_total 0 e with h | h
  · obtain ⟨n, rfl⟩ := Int.eq_ofNat_of_zero_le h
    simp
  · obtain ⟨n, hn⟩ := Int.eq_ofNat_of_zero_le (Int.neg_nonneg_of_nonpos h)
    obtain rfl : e = -(n : Int) := by omega
    simp

theorem two_pow_mul (n : Nat) (e : Int) : (2 : ℚ) ^ n * 2 ^ e = 2 ^ (n + e) := by
  rw [zpow_add₀ (by norm_num), zpow_natCast]

theorem half_two_pow (e : Int) : (2 : ℚ) ^ e / 2 = 2 ^ (e - 1) := by
  rw [zpow_sub_one₀ (by norm_num), div_eq_mul_inv]

namespace Double

variable {m n d a b : Nat} {e : Int} {negative : Bool} {q y : ℚ}

/-- The size as a number; zero if it is not finite. -/
def size : Double → ℚ
  | .finite _ m e => m * 2 ^ e
  | _ => 0

/-- The one form that a finite double has: its mantissa has 53 bits, unless it is one of those
nearest to zero. -/
structure Fits (m : Nat) (e : Int) : Prop where
  mantissa_lt : m < 2 ^ 53
  exponent_ge : minExponent ≤ e
  exponent_le : e ≤ maxExponent
  full : 2 ^ 52 ≤ m ∨ e = minExponent

/-- A finite double. -/
def Proper : Double → Prop
  | .finite _ m e => Fits m e
  | _ => False

/-- The relative error is at most 2^-53; only very small numbers have an absolute error instead. -/
def NearestTo (q y : ℚ) : Prop :=
  |y - q| ≤ q * 2 ^ (-53 : Int) ∨ q < 2 ^ (-1022 : Int) ∧ |y - q| ≤ 2 ^ (-1075 : Int)

theorem shifted_spec (n : Nat) {d : Nat} (hd : 0 < d) (e : Int) : 0 < (shifted n d e).2 ∧
    ((shifted n d e).1 : ℚ) / (shifted n d e).2 = n / d * 2 ^ (-e) := by
  refine ⟨Nat.mul_pos hd (Nat.pow_pos (by decide)), ?_⟩
  have hpow := pow_toNat_div 2 (-e)
  rw [Int.neg_neg] at hpow
  simp only [shifted, Nat.cast_mul, cast_twoTo]
  rw [← hpow]
  exact mul_div_mul_comm _ _ _ _

theorem log2_bounds (hn : n ≠ 0) :
    (2 : ℚ) ^ (n.log2 : Int) ≤ n ∧ (n : ℚ) < 2 ^ (n.log2 + 1 : Int) := by
  have hlow : (2 ^ n.log2 : Nat) ≤ n := Nat.log2_self_le hn
  have hhigh : n < 2 ^ (n.log2 + 1) := Nat.lt_log2_self
  refine ⟨by exact_mod_cast hlow, by exact_mod_cast hhigh⟩

theorem shifted_lt_iff (n : Nat) (hd : 0 < d) (e : Int) :
    (shifted n d e).1 < (shifted n d e).2 * twoTo 52 ↔ (n / d : ℚ) < 2 ^ 52 * 2 ^ e := by
  obtain ⟨hpos, hquotient⟩ := shifted_spec n hd e
  have hpos : (0 : ℚ) < (shifted n d e).2 := Nat.cast_pos.2 hpos
  rw [← Nat.cast_lt (α := ℚ), Nat.cast_mul, cast_twoTo, mul_comm, ← div_lt_iff₀ hpos, hquotient,
    zpow_neg, ← div_eq_mul_inv, div_lt_iff₀ (by positivity)]

/-- Between two powers of two that are next to each other but one. -/
theorem quotient_bounds (hn : n ≠ 0) (hd : 0 < d) (he : e = (n.log2 : Int) - d.log2 - 52) :
    2 ^ 51 * 2 ^ e ≤ (n / d : ℚ) ∧ (n / d : ℚ) < 2 ^ 53 * 2 ^ e := by
  obtain ⟨hnlow, hnhigh⟩ := log2_bounds hn
  obtain ⟨hdlow, hdhigh⟩ := log2_bounds (Nat.ne_of_gt hd)
  have hdpos : (0 : ℚ) < d := Nat.cast_pos.2 hd
  constructor
  · calc (2 : ℚ) ^ 51 * 2 ^ e = 2 ^ (n.log2 : Int) / 2 ^ (d.log2 + 1 : Int) := by
          rw [← zpow_natCast, ← zpow_add₀ (by norm_num), ← zpow_sub₀ (by norm_num), he]
          congr 1
          push_cast
          ring
      _ ≤ n / d := div_le_div₀ (by positivity) hnlow hdpos hdhigh.le
  · calc (n / d : ℚ) < 2 ^ (n.log2 + 1 : Int) / 2 ^ (d.log2 : Int) :=
          div_lt_div₀ hnhigh hdlow (by positivity) (by positivity)
      _ = 2 ^ 53 * 2 ^ e := by
          rw [← zpow_natCast (2 : ℚ) 53, ← zpow_add₀ (by norm_num), ← zpow_sub₀ (by norm_num), he]
          congr 1
          push_cast
          ring

/-- The mantissa of a quotient, at the exponent that is chosen for it, has 53 bits, or it has fewer
at the least exponent. -/
theorem exponentFor_spec (hn : n ≠ 0) (hd : 0 < d) :
    minExponent ≤ exponentFor n d ∧ (n / d : ℚ) < 2 ^ 53 * 2 ^ exponentFor n d ∧
      (2 ^ 52 * 2 ^ exponentFor n d ≤ (n / d : ℚ) ∨ exponentFor n d = minExponent) := by
  obtain ⟨e, he⟩ : ∃ e : Int, e = (n.log2 : Int) - d.log2 - 52 := ⟨_, rfl⟩
  obtain ⟨hlow, hhigh⟩ := quotient_bounds hn hd he
  obtain ⟨c, hc, hclow, hchigh⟩ : ∃ c : Int, exponentFor n d = max minExponent c ∧
      2 ^ 52 * 2 ^ c ≤ (n / d : ℚ) ∧ (n / d : ℚ) < 2 ^ 53 * 2 ^ c := by
    by_cases hsmall : (n / d : ℚ) < 2 ^ 52 * 2 ^ e
    · refine ⟨e - 1, ?_, ?_, ?_⟩
      · rw [exponentFor, ← he]
        exact congrArg (max minExponent) (if_pos ((shifted_lt_iff n hd e).2 hsmall))
      · rw [zpow_sub_one₀ (by norm_num)]
        linarith
      · rw [zpow_sub_one₀ (by norm_num)]
        linarith
    · refine ⟨e, ?_, not_lt.1 hsmall, hhigh⟩
      rw [exponentFor, ← he]
      exact congrArg (max minExponent) (if_neg (mt (shifted_lt_iff n hd e).1 hsmall))
  rw [hc]
  rcases Int.le_total minExponent c with hmin | hmin
  · rw [max_eq_right hmin]
    exact ⟨hmin, hchigh, .inl hclow⟩
  · rw [max_eq_left hmin]
    have hmono : (2 : ℚ) ^ c ≤ 2 ^ minExponent := zpow_le_zpow_right₀ (by norm_num) hmin
    exact ⟨le_rfl, by linarith, .inr rfl⟩

theorem nearest_bounds (a : Nat) (hb : 0 < b) :
    2 * a ≤ 2 * (b * nearest a b) + b ∧ 2 * (b * nearest a b) ≤ 2 * a + b := by
  have hdiv := Nat.div_add_mod a b
  have hmod := Nat.mod_lt a hb
  rw [nearest]
  split
  · rw [Nat.mul_add, Nat.mul_one]
    omega
  · omega

/-- The nearest whole number is at most one half away. -/
theorem abs_nearest_sub_le (a : Nat) (hb : 0 < b) : |(nearest a b : ℚ) - a / b| ≤ 1 / 2 := by
  obtain ⟨hlow, hhigh⟩ := nearest_bounds a hb
  have hbpos : (0 : ℚ) < b := Nat.cast_pos.2 hb
  have hlow : 2 * (a : ℚ) ≤ 2 * (b * nearest a b) + b := by exact_mod_cast hlow
  have hhigh : 2 * (b * nearest a b : ℚ) ≤ 2 * a + b := by exact_mod_cast hhigh
  have ha : (a : ℚ) = b * (a / b) := by field_simp
  rw [abs_le]
  constructor <;> nlinarith

/-! ### The nearest double -/

/-- The number that stands at the exponent, half a step away at most. -/
theorem abs_nearest_shifted (n : Nat) (hd : 0 < d) (e : Int) :
    |(nearest (shifted n d e).1 (shifted n d e).2 : ℚ) * 2 ^ e - n / d| ≤ 2 ^ e / 2 := by
  obtain ⟨hpos, hquotient⟩ := shifted_spec n hd e
  have hnear := abs_nearest_sub_le (shifted n d e).1 hpos
  have hsize : (0 : ℚ) < 2 ^ e := by positivity
  have hq : (n / d : ℚ) = (shifted n d e).1 / (shifted n d e).2 * 2 ^ e := by
    rw [hquotient, mul_assoc, ← zpow_add₀ (by norm_num), neg_add_cancel, zpow_zero, mul_one]
  rw [hq, ← sub_mul, abs_mul, abs_of_pos hsize]
  nlinarith

/-- The mantissa that is nearest at the exponent of a quotient has no more than 53 bits, unless it
is the power of two next to them, and all of them if the exponent is not the least one. -/
theorem nearest_fits (hn : n ≠ 0) (hd : 0 < d)
    (hnear : |(m * 2 ^ exponentFor n d : ℚ) - n / d| ≤ 2 ^ exponentFor n d / 2) :
    m ≤ 2 ^ 53 ∧ (2 ^ 52 ≤ m ∨ exponentFor n d = minExponent) := by
  obtain ⟨-, hhigh, hlow⟩ := exponentFor_spec hn hd
  have hsize : (0 : ℚ) < 2 ^ exponentFor n d := by positivity
  obtain ⟨hbelow, habove⟩ := abs_le.1 hnear
  refine ⟨?_, hlow.imp_left fun hfull => ?_⟩
  · have hlt : (m : ℚ) * 2 ^ exponentFor n d < (2 ^ 53 + 1) * 2 ^ exponentFor n d := by linarith
    have hlt : (m : ℚ) < 2 ^ 53 + 1 := lt_of_mul_lt_mul_right hlt hsize.le
    exact Nat.lt_succ_iff.1 (by exact_mod_cast hlt)
  · have hlt : (2 ^ 52 : ℚ) * 2 ^ exponentFor n d < (m + 1) * 2 ^ exponentFor n d := by linarith
    have hlt : (2 ^ 52 : ℚ) < m + 1 := lt_of_mul_lt_mul_right hlt hsize.le
    exact Nat.lt_succ_iff.1 (by exact_mod_cast hlt)

/-- Half a step is a small part of a quotient. -/
theorem nearestTo_of_half (hn : n ≠ 0) (hd : 0 < d) (hy : |y - n / d| ≤ 2 ^ exponentFor n d / 2) :
    NearestTo (n / d) y := by
  obtain ⟨-, -, hlow⟩ := exponentFor_spec hn hd
  by_cases hfull : 2 ^ 52 * 2 ^ exponentFor n d ≤ (n / d : ℚ)
  · exact .inl (hy.trans (by linarith))
  · have hmin := hlow.resolve_left hfull
    rw [hmin] at hy hfull
    rw [not_le, two_pow_mul] at hfull
    rw [half_two_pow] at hy
    exact .inr ⟨hfull, hy⟩

/-- The mantissa at the chosen exponent; the one that has grown to a power of two goes on to the
next exponent. -/
theorem ofRatio_of_nearest (hn : n ≠ 0) (he : exponentFor n d = e) (hs : shifted n d e = (a, b))
    (hm : nearest a b = m) : ofRatio negative n d =
      if m = twoTo 53 then
        if maxExponent < e + 1 then .infinite negative else .finite negative (twoTo 52) (e + 1)
      else if maxExponent < e then .infinite negative else .finite negative m e := by
  rw [ofRatio, if_neg hn, he]
  simp only [hs, hm]
  generalize twoTo 53 = limit
  by_cases h : m = limit
  · rw [if_pos h, if_pos h]
  · rw [if_neg h, if_neg h]

/-- A quotient is rounded to a double that is nearest to it, or it is too large for any. -/
theorem ofRatio_spec (negative : Bool) (n : Nat) (hd : 0 < d) :
    (Proper (ofRatio negative n d) ∧ NearestTo (n / d) (ofRatio negative n d).size) ∨
      ofRatio negative n d = .infinite negative ∧
        (2 ^ 53 - 1 / 2 : ℚ) * 2 ^ maxExponent ≤ n / d := by
  by_cases hn : n = 0
  · subst hn
    refine .inl ⟨⟨by norm_num, le_rfl, by decide, .inr rfl⟩, .inl ?_⟩
    simp [ofRatio, size]
  obtain ⟨hmin, -, hlow⟩ := exponentFor_spec hn hd
  obtain ⟨e, he⟩ : ∃ e, exponentFor n d = e := ⟨_, rfl⟩
  obtain ⟨m, hm⟩ : ∃ m, nearest (shifted n d e).1 (shifted n d e).2 = m := ⟨_, rfl⟩
  have hnear := abs_nearest_shifted n hd e
  rw [ofRatio_of_nearest hn he rfl hm]
  rw [hm] at hnear
  subst he
  obtain ⟨hle, hfull⟩ := nearest_fits hn hd hnear
  have hcarry : twoTo 53 = 2 ^ 53 := rfl
  have hround := nearestTo_of_half hn hd hnear
  generalize exponentFor n d = e at *
  have hbelow := (abs_le.1 hnear).2
  by_cases hpower : m = twoTo 53
  · subst hpower
    have hsame : (twoTo 52 : ℚ) * 2 ^ (e + 1) = twoTo 53 * 2 ^ e := by
      rw [cast_twoTo, cast_twoTo, zpow_add_one₀ (by norm_num)]
      ring
    rw [if_pos rfl]
    by_cases hbig : maxExponent < e + 1
    · rw [if_pos hbig]
      refine .inr ⟨rfl, ?_⟩
      have hsize : (2 : ℚ) ^ maxExponent ≤ 2 ^ e := zpow_le_zpow_right₀ (by norm_num) (by omega)
      rw [cast_twoTo] at hbelow
      linarith
    · rw [if_neg hbig]
      refine .inl ⟨⟨by decide, by omega, by omega, .inl le_rfl⟩, ?_⟩
      rwa [size, hsame]
  · rw [if_neg hpower]
    by_cases hbig : maxExponent < e
    · rw [if_pos hbig]
      refine .inr ⟨rfl, ?_⟩
      have hsize : (2 : ℚ) ^ (maxExponent + 1) ≤ 2 ^ e := zpow_le_zpow_right₀ (by norm_num) hbig
      have hpos : (0 : ℚ) < 2 ^ maxExponent := by positivity
      rw [zpow_add_one₀ (by norm_num)] at hsize
      have hlow := hlow.resolve_right fun h => absurd (h ▸ hbig) (by decide)
      linarith
    · rw [if_neg hbig]
      exact .inl ⟨⟨by omega, hmin, by omega, hfull⟩, hround⟩

end Double

end Casework
