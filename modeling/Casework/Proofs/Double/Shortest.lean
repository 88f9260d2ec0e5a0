import Casework.Double.Text
import Casework.Proofs.Double.Rounding
import Mathlib.Data.Nat.Cast.Order.Field
import Mathlib.Order.Compare

/-!
# The digits of a double

The decimal that is written of a double is at most half a step of its grid away from it, and it has
18 digits at most: on a grid of so many digits the neighbour below lies within the interval, so that
the search always comes to an end before the exact decimal is taken.
-/

namespace Casework.Double

variable {m n a b : Nat} {e i j p power : Int} {tie : Tie} {x y c : ℚ} {digits : Nat}

/-! ### Comparisons -/

theorem compare_of_scale (hc : 0 < c) (ha : (a : ℚ) = x * c) (hb : (b : ℚ) = y * c) :
    compare a b = compare x y := by
  rcases lt_trichotomy x y with h | h | h
  · have hlt : (a : ℚ) < b := by
      rw [ha, hb]
      exact mul_lt_mul_of_pos_right h hc
    rw [compare_lt_iff_lt.2 h, compare_lt_iff_lt.2 (Nat.cast_lt.1 hlt)]
  · have heq : (a : ℚ) = b := by rw [ha, hb, h]
    rw [compare_eq_iff_eq.2 h, compare_eq_iff_eq.2 (Nat.cast_inj.1 heq)]
  · have hlt : (b : ℚ) < a := by
      rw [ha, hb]
      exact mul_lt_mul_of_pos_right h hc
    rw [compare_gt_iff_gt.2 h, compare_gt_iff_gt.2 (Nat.cast_lt.1 hlt)]

theorem compareScaled_eq (a : Nat) (i : Int) (n : Nat) (j : Int) :
    compareScaled a i n j = compare (a * 10 ^ i : ℚ) (n * 2 ^ j) := by
  refine compare_of_scale (c := 10 ^ (-i).toNat * 2 ^ (-j).toNat) (by positivity) ?_ ?_
  · rw [← pow_toNat_div 10 i]
    push_cast [cast_tenTo, cast_twoTo]
    field_simp
  · rw [← pow_toNat_div 2 j]
    push_cast [cast_tenTo, cast_twoTo]
    field_simp

/-! ### The interval of a double -/

theorem quarter_two_pow (e : Int) : (2 : ℚ) ^ e = 4 * 2 ^ (e - 2) := by
  rw [zpow_sub₀ (by norm_num)]
  ring

/-- What reads back is half a step away at most. -/
theorem abs_sub_of_readsBack (h : readsBack m e digits p) :
    |(digits * 10 ^ p - m * 2 ^ e : ℚ)| ≤ 2 ^ e / 2 := by
  obtain ⟨below, hbelow, hle⟩ : ∃ below,
      (if m = twoTo 52 ∧ minExponent < e then 4 * m - 1 else 4 * m - 2) = below ∧
        4 * m - 2 ≤ below := by
    refine ⟨_, rfl, ?_⟩
    split <;> omega
  rw [readsBack] at h
  simp only [hbelow, compareScaled_eq] at h
  have hstep : (0 : ℚ) < 2 ^ (e - 2) := by positivity
  have hbelow : (4 * m - 2 : ℚ) ≤ below := by
    have : 4 * m ≤ below + 2 := by omega
    have : (4 * m : ℚ) ≤ below + 2 := by exact_mod_cast this
    linarith
  simp only [Bool.and_eq_true, Bool.or_eq_true, beq_iff_eq] at h
  obtain ⟨hlow, hhigh⟩ := h
  have hlow : (below * 2 ^ (e - 2) : ℚ) ≤ digits * 10 ^ p := by
    rcases hlow with hgt | ⟨heq, -⟩
    · exact (compare_gt_iff_gt.1 hgt).le
    · exact (compare_eq_iff_eq.1 heq).ge
  have hhigh : (digits * 10 ^ p : ℚ) ≤ (4 * m + 2 : Nat) * 2 ^ (e - 2) := by
    rcases hhigh with hlt | ⟨heq, -⟩
    · exact (compare_lt_iff_lt.1 hlt).le
    · exact (compare_eq_iff_eq.1 heq).le
  push_cast at hhigh
  have hlow := (mul_le_mul_of_nonneg_right hbelow hstep.le).trans hlow
  rw [quarter_two_pow e, abs_le]
  constructor <;> linarith

/-- What lies below a double, and less than a quarter of a step away, reads back. -/
theorem readsBack_of_below (hm : m ≠ 0) (hle : (digits * 10 ^ p : ℚ) ≤ m * 2 ^ e)
    (hlt : (m * 2 ^ e : ℚ) < digits * 10 ^ p + 2 ^ e / 4) : readsBack m e digits p := by
  obtain ⟨below, hbelow, hle'⟩ : ∃ below,
      (if m = twoTo 52 ∧ minExponent < e then 4 * m - 1 else 4 * m - 2) = below ∧
        below + 1 ≤ 4 * m := by
    refine ⟨_, rfl, ?_⟩
    split <;> omega
  have hstep : (0 : ℚ) < 2 ^ (e - 2) := by positivity
  have hbelow' : (below + 1 : ℚ) ≤ 4 * m := by exact_mod_cast hle'
  have hbelow' := mul_le_mul_of_nonneg_right hbelow' hstep.le
  rw [quarter_two_pow e] at hle hlt
  have hlow : compareScaled digits p below (e - 2) = .gt := by
    rw [compareScaled_eq, compare_gt_iff_gt]
    linarith
  have hhigh : compareScaled digits p (4 * m + 2) (e - 2) = .lt := by
    rw [compareScaled_eq, compare_lt_iff_lt]
    push_cast
    linarith
  rw [readsBack]
  simp only [hbelow, hlow, hhigh]
  rfl

/-! ### The grid of a power of ten -/

theorem floorAt_bounds (m : Nat) (e p : Int) : (floorAt m e p * 10 ^ p : ℚ) ≤ m * 2 ^ e ∧
    (m * 2 ^ e : ℚ) < (floorAt m e p + 1) * 10 ^ p := by
  have hten : (0 : ℚ) < 10 ^ p := by positivity
  have hpos : 0 < twoTo (-e).toNat * tenTo p.toNat :=
    Nat.mul_pos (Nat.pow_pos (by decide)) (Nat.pow_pos (by decide))
  have hquotient : ((m * twoTo e.toNat * tenTo (-p).toNat : Nat) : ℚ) =
      m * 2 ^ e / 10 ^ p * (twoTo (-e).toNat * tenTo p.toNat : Nat) := by
    rw [← pow_toNat_div 2 e, ← pow_toNat_div 10 p]
    push_cast [cast_tenTo, cast_twoTo]
    field_simp
  have hposq : (0 : ℚ) < (twoTo (-e).toNat * tenTo p.toNat : Nat) := Nat.cast_pos.2 hpos
  rw [floorAt, ← le_div_iff₀ hten, ← div_lt_iff₀ hten]
  constructor
  · refine le_of_mul_le_mul_right ?_ hposq
    rw [← hquotient]
    exact_mod_cast Nat.div_mul_le_self _ _
  · refine lt_of_mul_lt_mul_right ?_ hposq.le
    rw [← hquotient]
    exact_mod_cast Nat.lt_mul_of_div_lt (Nat.lt_succ_self _) hpos

theorem Tie.choose_cases (tie : Tie) (n : Nat) : tie.choose n = n ∨ tie.choose n = n + 1 := by
  cases tie with
  | upward => exact .inr rfl
  | toEven => exact ite_eq_or_eq _ _ _

/-- One of the two neighbours is taken, and it is one that reads back. -/
theorem readsBack_of_candidate? (h : candidate? tie m e p = some digits) :
    readsBack m e digits p := by
  rw [candidate?] at h
  cases hlow : readsBack m e (floorAt m e p) p <;>
    cases hhigh : readsBack m e (floorAt m e p + 1) p <;> simp only [hlow, hhigh] at h
  case false.false => cases h
  case true.false | false.true =>
    obtain rfl := Option.some.inj h
    assumption
  case true.true =>
    split at h <;> obtain rfl := Option.some.inj h
    · exact hlow
    · exact hhigh
    · rcases tie.choose_cases (floorAt m e p) with heq | heq
      · rw [heq]
        exact hlow
      · rw [heq]
        exact hhigh

theorem candidate?_isSome (tie : Tie) (h : readsBack m e (floorAt m e p) p) :
    (candidate? tie m e p).isSome := by
  rw [candidate?]
  cases hhigh : readsBack m e (floorAt m e p + 1) p <;> simp only [h]
  case false => rfl
  case true => split <;> rfl

/-! ### The magnitude of a double -/

/-- Powers of two bases compare like one pair of them. -/
theorem zpow_le_zpow_of_pow_le (hx : 0 < x) (hy : 1 ≤ y) {k l : Nat} (hk : k ≠ 0)
    (h : x ^ k ≤ y ^ l) (hi : 0 ≤ i) (hij : l * i ≤ k * j) : x ^ i ≤ y ^ j := by
  have hypos : 0 < y := by linarith
  refine (pow_le_pow_iff_left₀ (by positivity) (by positivity) hk).1 ?_
  calc (x ^ i) ^ k = (x ^ k) ^ i := by rw [← zpow_natCast, ← zpow_natCast, zpow_comm]
    _ ≤ (y ^ l) ^ i := zpow_le_zpow_left₀ hi (by positivity) h
    _ = y ^ (l * i) := by rw [← zpow_natCast, ← zpow_mul]
    _ ≤ y ^ (k * j) := zpow_le_zpow_right₀ hy hij
    _ = (y ^ j) ^ k := by rw [← zpow_natCast, ← zpow_mul, mul_comm]

theorem ten_zpow_le_of_nonneg (hi : 0 ≤ i) (hij : 196 * i ≤ 59 * j) : (10 : ℚ) ^ i ≤ 2 ^ j :=
  zpow_le_zpow_of_pow_le (by norm_num) (by norm_num) (by decide) (by norm_num) hi hij

theorem two_zpow_le_of_nonneg (hj : 0 ≤ j) (hij : 28 * j ≤ 93 * i) : (2 : ℚ) ^ j ≤ 10 ^ i :=
  zpow_le_zpow_of_pow_le (by norm_num) (by norm_num) (by decide) (by norm_num) hj hij

theorem ten_zpow_le (hpos : 196 * i ≤ 59 * j) (hneg : 93 * i ≤ 28 * j) :
    (10 : ℚ) ^ i ≤ 2 ^ j := by
  rcases Int.le_total 0 i with hi | hi
  · exact ten_zpow_le_of_nonneg hi hpos
  rcases Int.le_total 0 j with hj | hj
  · exact (zpow_le_one_of_nonpos₀ (by norm_num) hi).trans (one_le_zpow₀ (by norm_num) hj)
  · have hle := two_zpow_le_of_nonneg (i := -i) (j := -j) (by omega) (by omega)
    rw [zpow_neg, zpow_neg] at hle
    exact (inv_le_inv₀ (by positivity) (by positivity)).1 hle

theorem two_zpow_le (hpos : 59 * j ≤ 196 * i) (hneg : 28 * j ≤ 93 * i) :
    (2 : ℚ) ^ j ≤ 10 ^ i := by
  rcases Int.le_total 0 j with hj | hj
  · exact two_zpow_le_of_nonneg hj hneg
  rcases Int.le_total 0 i with hi | hi
  · exact (zpow_le_one_of_nonpos₀ (by norm_num) hj).trans (one_le_zpow₀ (by norm_num) hi)
  · have hle := ten_zpow_le_of_nonneg (i := -i) (j := -j) (by omega) (by omega)
    rw [zpow_neg, zpow_neg] at hle
    exact (inv_le_inv₀ (by positivity) (by positivity)).1 hle

theorem log2_size_bounds (hm : m ≠ 0) (e : Int) : (2 ^ ((m.log2 : Int) + e) : ℚ) ≤ m * 2 ^ e ∧
    (m * 2 ^ e : ℚ) < 2 ^ ((m.log2 : Int) + e + 1) := by
  obtain ⟨hlow, hhigh⟩ := log2_bounds hm
  have hstep : (0 : ℚ) < 2 ^ e := by positivity
  constructor
  · rw [zpow_add₀ (by norm_num)]
    exact mul_le_mul_of_nonneg_right hlow hstep.le
  · rw [add_right_comm, zpow_add₀ (by norm_num)]
    exact mul_lt_mul_of_pos_right hhigh hstep

theorem log2_exponent_bounds (hm : m ≠ 0) (hfits : Fits m e) :
    -1074 ≤ (m.log2 : Int) + e ∧ (m.log2 : Int) + e ≤ 1023 := by
  have hlog : m.log2 < 53 := (Nat.log2_lt hm).2 hfits.mantissa_lt
  have hmin := hfits.exponent_ge
  have hmax := hfits.exponent_le
  simp only [minExponent, maxExponent] at hmin hmax
  omega

theorem compareScaled_one_iff :
    (compareScaled 1 i m e == .gt) = true ↔ (m * 2 ^ e : ℚ) < 10 ^ i := by
  rw [compareScaled_eq, beq_iff_eq, compare_gt_iff_gt, Nat.cast_one, one_mul]

/-- The power of ten above a double is the least one. -/
theorem magnitude_bounds (hm : m ≠ 0) (hfits : Fits m e) :
    (10 ^ (magnitude m e - 1) : ℚ) ≤ m * 2 ^ e ∧ (m * 2 ^ e : ℚ) < 10 ^ magnitude m e := by
  obtain ⟨hlow, hhigh⟩ := log2_size_bounds hm e
  obtain ⟨hmin, hmax⟩ := log2_exponent_bounds hm hfits
  rw [magnitude]
  generalize (m.log2 : Int) + e = log at *
  -- The guess is at most three below the least power above the double, and never above it.
  have hguess : (10 : ℚ) ^ (log * 30103 / 100000 - 1 - 1) ≤ m * 2 ^ e :=
    (ten_zpow_le (by omega) (by omega)).trans hlow
  have hlast : (m * 2 ^ e : ℚ) < 10 ^ (log * 30103 / 100000 - 1 + 3) :=
    lt_of_lt_of_le hhigh (two_zpow_le (by omega) (by omega))
  generalize log * 30103 / 100000 - 1 = guess at *
  cases hfind : (List.range 4).find? fun (i : Nat) => compareScaled 1 (guess + i) m e == .gt with
  | none =>
    rw [List.find?_range_eq_none] at hfind
    have hthree := hfind 3 (by decide)
    rw [Bool.not_eq_true', ← Bool.not_eq_true, compareScaled_one_iff] at hthree
    exact absurd hlast hthree
  | some i =>
    obtain ⟨hfound, -, hbefore⟩ := List.find?_range_eq_some.1 hfind
    refine ⟨?_, compareScaled_one_iff.1 hfound⟩
    cases i with
    | zero => simpa using hguess
    | succ i =>
      have hbelow := hbefore i (Nat.lt_succ_self i)
      rw [Bool.not_eq_true', ← Bool.not_eq_true, compareScaled_one_iff] at hbelow
      have hsame : guess + (some (i + 1)).getD 3 - 1 = guess + i := by
        simp
        omega
      rw [hsame]
      exact not_lt.1 hbelow

/-! ### The decimal that is found -/

theorem dropTrailingZeros_spec (fuel digits : Nat) (p : Int) :
    ((dropTrailingZeros fuel digits p).1 * 10 ^ (dropTrailingZeros fuel digits p).2 : ℚ) =
        digits * 10 ^ p ∧
      (dropTrailingZeros fuel digits p).1 ≤ digits ∧
      (digits ≠ 0 → (dropTrailingZeros fuel digits p).1 ≠ 0) := by
  induction fuel generalizing digits p with
  | zero => exact ⟨rfl, le_rfl, id⟩
  | succ fuel ih =>
    rw [dropTrailingZeros]
    split
    · rename_i h
      obtain ⟨hvalue, hle, hne⟩ := ih (digits / 10) (p + 1)
      have hten : digits = digits / 10 * 10 := by omega
      refine ⟨?_, hle.trans (Nat.div_le_self _ _), fun _ => hne (by omega)⟩
      rw [hvalue, zpow_add_one₀ (by norm_num), ← mul_assoc, mul_right_comm]
      conv_rhs => rw [hten]
      push_cast
      rfl
    · exact ⟨rfl, le_rfl, id⟩

/-- On the grid of 18 digits the neighbour below reads back. -/
theorem readsBack_floorAt (hm : m ≠ 0) (hfits : Fits m e) :
    readsBack m e (floorAt m e (magnitude m e - 18)) (magnitude m e - 18) := by
  obtain ⟨hlow, -⟩ := magnitude_bounds hm hfits
  obtain ⟨hfloor, hnext⟩ := floorAt_bounds m e (magnitude m e - 18)
  refine readsBack_of_below hm hfloor ?_
  have hgrid : (10 : ℚ) ^ (magnitude m e - 1) = 10 ^ 17 * 10 ^ (magnitude m e - 18) := by
    rw [← zpow_natCast, ← zpow_add₀ (by norm_num)]
    congr 1
    push_cast
    ring
  have hmantissa : (m : ℚ) < 2 ^ 53 := by exact_mod_cast hfits.mantissa_lt
  have hsize : (m * 2 ^ e : ℚ) < 2 ^ 53 * 2 ^ e := mul_lt_mul_of_pos_right hmantissa (by positivity)
  have hstep : (0 : ℚ) < 2 ^ e := by positivity
  linarith

/-- What is known of the digits that are written of a double. -/
structure Written (m : Nat) (e : Int) (digits : Nat) (p : Int) : Prop where
  pos : digits ≠ 0
  lt : digits < 2 ^ 64
  near : |(digits * 10 ^ p - m * 2 ^ e : ℚ)| ≤ 2 ^ e / 2

theorem written_of_candidate? (hm : m ≠ 0) (hfits : Fits m e) (hn : n < 18)
    (h : candidate? tie m e (magnitude m e - (n + 1 : Nat)) = some digits) :
    Written m e digits (magnitude m e - (n + 1 : Nat)) := by
  obtain ⟨-, hhigh⟩ := magnitude_bounds hm hfits
  have hnear := abs_sub_of_readsBack (readsBack_of_candidate? h)
  obtain ⟨hbelow, habove⟩ := abs_le.1 hnear
  have hgrid : (10 : ℚ) ^ magnitude m e = 10 ^ (n + 1) * 10 ^ (magnitude m e - (n + 1 : Nat)) := by
    rw [← zpow_natCast, ← zpow_add₀ (by norm_num)]
    congr 1
    omega
  generalize magnitude m e - ((n + 1 : Nat) : Int) = p at *
  have hstep : (0 : ℚ) < 2 ^ e := by positivity
  have hten : (0 : ℚ) < 10 ^ p := by positivity
  have hone : (1 : ℚ) ≤ m := by exact_mod_cast Nat.pos_of_ne_zero hm
  have hsize : (2 ^ e : ℚ) ≤ m * 2 ^ e := by nlinarith
  refine ⟨?_, ?_, hnear⟩
  · rintro rfl
    rw [Nat.cast_zero, zero_mul] at hbelow
    linarith
  · have hdigits : (10 : ℚ) ^ (n + 1) ≤ 10 ^ 18 := pow_le_pow_right₀ (by norm_num) (by omega)
    have hdigits : (10 ^ (n + 1) * 10 ^ p : ℚ) ≤ 10 ^ 18 * 10 ^ p :=
      mul_le_mul_of_nonneg_right hdigits hten.le
    have hlt : (digits * 10 ^ p : ℚ) < 2 ^ 64 * 10 ^ p := by linarith
    exact_mod_cast lt_of_mul_lt_mul_right hlt hten.le

theorem Written.dropTrailingZeros (h : Written m e digits p) (fuel : Nat) :
    Written m e (dropTrailingZeros fuel digits p).1 (dropTrailingZeros fuel digits p).2 := by
  obtain ⟨hvalue, hle, hne⟩ := dropTrailingZeros_spec fuel digits p
  exact ⟨hne h.pos, hle.trans_lt h.lt, hvalue ▸ h.near⟩

/-- The decimal that is written of a double is at most half a step away from it. -/
theorem shortest_spec (tie : Tie) (hm : m ≠ 0) (hfits : Fits m e) :
    Written m e (shortest tie m e).1 (shortest tie m e).2 := by
  rw [shortest, if_neg hm]
  dsimp only
  split
  · rename_i digits power hfind
    obtain ⟨n, hn, hfound⟩ := List.exists_of_findSome?_eq_some hfind
    obtain ⟨found, hcandidate, heq⟩ := Option.map_eq_some_iff.1 hfound
    obtain ⟨rfl, rfl⟩ := Prod.mk.inj heq
    exact (written_of_candidate? hm hfits (List.mem_range.1 hn) hcandidate).dropTrailingZeros 20
  · rename_i hfind
    have hlast := List.findSome?_eq_none_iff.1 hfind 17 (by decide)
    have hsome := candidate?_isSome tie (readsBack_floorAt hm hfits)
    rw [Option.map_eq_none_iff] at hlast
    exact absurd (hlast ▸ hsome) (by decide)

theorem step_le_size (hm : m ≠ 0) (e : Int) : (2 ^ e : ℚ) ≤ m * 2 ^ e :=
  le_mul_of_one_le_left (by positivity) (by exact_mod_cast Nat.pos_of_ne_zero hm)

theorem size_lt (hfits : Fits m e) : (m * 2 ^ e : ℚ) < 2 ^ (1024 : Int) := by
  have hmantissa : (m : ℚ) < 2 ^ 53 := by exact_mod_cast hfits.mantissa_lt
  calc (m * 2 ^ e : ℚ) < 2 ^ 53 * 2 ^ e := mul_lt_mul_of_pos_right hmantissa (by positivity)
    _ ≤ 2 ^ 53 * 2 ^ maxExponent := by
        gcongr
        · norm_num
        · exact hfits.exponent_le
    _ = 2 ^ (1024 : Int) := two_pow_mul 53 maxExponent

/-- The power of ten of what is written is not far from the sizes of doubles. -/
theorem Written.power_bounds (h : Written m e digits p) (hm : m ≠ 0) (hfits : Fits m e) :
    -343 < p ∧ p < 309 := by
  have hten : (0 : ℚ) < 10 ^ p := by positivity
  have hsize := size_lt hfits
  have hstep := step_le_size hm e
  have hleast : (2 : ℚ) ^ (-1074 : Int) ≤ 2 ^ e :=
    zpow_le_zpow_right₀ (by norm_num) hfits.exponent_ge
  obtain ⟨hbelow, habove⟩ := abs_le.1 h.near
  have hone : (1 : ℚ) ≤ digits := by exact_mod_cast Nat.pos_of_ne_zero h.pos
  have hlt : (digits : ℚ) < 2 ^ 64 := by exact_mod_cast h.lt
  have hone : (10 ^ p : ℚ) ≤ digits * 10 ^ p := le_mul_of_one_le_left hten.le hone
  have hlt : (digits * 10 ^ p : ℚ) < 2 ^ 64 * 10 ^ p := mul_lt_mul_of_pos_right hlt hten
  constructor
  · refine (zpow_lt_zpow_iff_right₀ (by norm_num : (1 : ℚ) < 10)).1 ?_
    have hlow : (10 : ℚ) ^ (-343 : Int) ≤ 2 ^ (-1139 : Int) := ten_zpow_le (by decide) (by decide)
    have hsplit : (2 : ℚ) ^ 65 * 2 ^ (-1139 : Int) = 2 ^ (-1074 : Int) := two_pow_mul 65 (-1139)
    linarith
  · refine (zpow_lt_zpow_iff_right₀ (by norm_num : (1 : ℚ) < 10)).1 ?_
    calc (10 ^ p : ℚ) ≤ m * 2 ^ e + m * 2 ^ e := by linarith
      _ < 2 ^ (1024 : Int) + 2 ^ (1024 : Int) := add_lt_add hsize hsize
      _ = 2 ^ (1024 + 1 : Int) := by rw [zpow_add_one₀ (by norm_num), mul_two]
      _ ≤ 10 ^ (309 : Int) := two_zpow_le (by decide) (by decide)

end Casework.Double
