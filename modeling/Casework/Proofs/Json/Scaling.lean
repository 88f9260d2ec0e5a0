import Casework.Json.Number
import Casework.Proofs.Double.Error
import Casework.Proofs.Double.Shortest

/-!
# Digits and a power of ten as a double

The double that is read of digits and a power of ten is computed in a few steps, each of which is
rounded. It is not always the nearest one, but its error is a few times that of rounding.
-/

namespace Casework.Json.Literal

open Double

variable {r δ q : ℚ} {x : Double} {n v : Nat} {power : Int}

/-! ### Sizes without an overflow -/

/-- From here on numbers are rounded to infinity. -/
def overflow : ℚ := (2 ^ 53 - 1 / 2) * 2 ^ maxExponent

theorem two_zpow_lt_overflow : (2 : ℚ) ^ (1023 : Int) < overflow := by
  have hpos : (0 : ℚ) < 2 ^ maxExponent := by positivity
  calc (2 : ℚ) ^ (1023 : Int) = 2 ^ 52 * 2 ^ maxExponent := (two_pow_mul 52 maxExponent).symm
    _ < overflow := by
        rw [overflow]
        exact mul_lt_mul_of_pos_right (by norm_num) hpos

theorem lt_overflow (hq : q ≤ 2 ^ 67) : q < overflow := by
  refine lt_of_le_of_lt (hq.trans ?_) two_zpow_lt_overflow
  rw [← zpow_natCast]
  exact zpow_le_zpow_right₀ (by norm_num) (by decide)

theorem ten_pow_lt_overflow (hn : n ≤ 308) : (10 : ℚ) ^ n < overflow := by
  have hpos : (0 : ℚ) < 2 ^ maxExponent := by positivity
  have hclose : (10 : ℚ) ^ (307 : Int) ≤ 2 ^ (1020 : Int) := ten_zpow_le (by decide) (by decide)
  calc (10 : ℚ) ^ n ≤ 10 ^ 308 := pow_le_pow_right₀ (by norm_num) hn
    _ = 10 * 10 ^ (307 : Int) := by rw [pow_succ', ← zpow_natCast]; rfl
    _ ≤ 10 * 2 ^ (1020 : Int) := mul_le_mul_of_nonneg_left hclose (by norm_num)
    _ = 10 * 2 ^ 49 * 2 ^ maxExponent := by rw [mul_assoc, two_pow_mul]; rfl
    _ < overflow := by
        rw [overflow]
        exact mul_lt_mul_of_pos_right (by norm_num) hpos

/-! ### Powers of ten -/

theorem normal_of_half_le {q : ℚ} (h : 1 / 2 ≤ q) : (2 : ℚ) ^ (-1022 : Int) ≤ q := by
  have hmono : (2 : ℚ) ^ (-1022 : Int) ≤ 2 ^ (-1 : Int) :=
    zpow_le_zpow_right₀ (by norm_num) (by decide)
  have hhalf : (2 : ℚ) ^ (-1 : Int) = 1 / 2 := by norm_num
  exact hmono.trans (hhalf.le.trans h)

theorem powerOfTen_within (hn : n ≤ 308) : Within unit 0 (powerOfTen n).size (10 ^ n) := by
  have hone : (1 : ℚ) ≤ 10 ^ n := one_le_pow₀ (by norm_num)
  have hspec := ofRatio_spec false (tenTo n) (Nat.one_pos)
  rw [cast_tenTo, Nat.cast_one, div_one] at hspec
  have hpower : powerOfTen n = ofRatio false (tenTo n) 1 := by
    rw [powerOfTen, ofScientific, Nat.one_mul, Int.toNat_natCast]
    have hzero : (-(n : Int)).toNat = 0 := by omega
    rw [hzero]
  rw [hpower]
  rcases hspec with ⟨-, hnear⟩ | ⟨-, hbig⟩
  · exact hnear.within_of_le (normal_of_half_le (by linarith))
  · exact absurd hbig (not_le.2 (ten_pow_lt_overflow hn))

theorem size_pos_of_within (hq : 0 < q) (h : Within r 0 x.size q) (hr : r < 1) : 0 < x.size := by
  have hmul := mul_lt_mul_of_pos_left hr hq
  have hlow := (abs_le.1 h).1
  linarith

theorem powerOfTen_pos (hn : n ≤ 308) : 0 < (powerOfTen n).size :=
  size_pos_of_within (by positivity) (powerOfTen_within hn) (by norm_num [unit_eq])

theorem divSize_within (hn : n ≤ 308) (hle : r ≤ 1 / 16) (hδ : 0 ≤ δ) (hq : 0 ≤ q)
    (hsmall : x.size ≤ 2 ^ 66) (h : Within r δ x.size q) :
    Proper (x.divSize (powerOfTen n)) ∧
      Within (r + 4 * unit) (tiny + 2 * δ) (x.divSize (powerOfTen n)).size (q / 10 ^ n) := by
  have hone : (1 : ℚ) ≤ 10 ^ n := one_le_pow₀ (by norm_num)
  have hinv : ((10 : ℚ) ^ n)⁻¹ ≤ 1 := inv_le_one_of_one_le₀ hone
  have hinvpos : 0 < ((10 : ℚ) ^ n)⁻¹ := by positivity
  have hpower := (powerOfTen_within hn).inv unit_pos.le (by norm_num [unit_eq]) (by positivity)
  have hquotient := h.mul hq hinvpos.le hpower
  rw [← div_eq_mul_inv, ← div_eq_mul_inv] at hquotient
  have hpos : 0 < (powerOfTen n).size := powerOfTen_pos hn
  have hnonneg : 0 ≤ x.size / (powerOfTen n).size := div_nonneg x.size_nonneg hpos.le
  have hbound : x.size / (powerOfTen n).size ≤ 2 ^ 67 := by
    have hlow := (abs_le.1 (powerOfTen_within hn)).1
    rw [unit_eq] at hlow
    rw [div_le_iff₀ hpos]
    linarith
  obtain ⟨hproper, hnear⟩ :=
    (divSize_spec x hpos).resolve_right fun h => absurd h.2 (not_le.2 (lt_overflow hbound))
  refine ⟨hproper, ((hnear.within hnonneg).trans unit_pos.le hquotient).mono (by positivity) ?_ ?_⟩
  · rw [unit_eq]
    linarith
  · have hδ' : δ * ((10 ^ n)⁻¹ * (1 + 2 * unit)) ≤ δ * (1 * (1 + 2 * unit)) := by
      have := unit_pos
      gcongr
    rw [unit_eq] at hδ' ⊢
    linarith

/-! ### The product -/

theorem significand_within (hv : v ≠ 0) (hlt : v < 2 ^ 64) :
    Within unit 0 (ofRatio false v 1).size v := by
  have hone : (1 : ℚ) ≤ v := by exact_mod_cast Nat.pos_of_ne_zero hv
  have hlt : (v : ℚ) < 2 ^ 64 := by exact_mod_cast hlt
  have hspec := ofRatio_spec false v Nat.one_pos
  rw [Nat.cast_one, div_one] at hspec
  rcases hspec with ⟨-, hnear⟩ | ⟨-, hbig⟩
  · exact hnear.within_of_le (normal_of_half_le (by linarith))
  · exact absurd hbig (not_le.2 (lt_overflow (by linarith)))

theorem isZero_of_size_pos (h : 0 < x.size) : x.isZero = false := by
  cases x with
  | finite negative m e =>
    rw [isZero, beq_eq_false_iff_ne]
    rintro rfl
    simp [size] at h
  | nan => rfl
  | infinite negative => rfl

theorem divSize_divSize_within {k : Nat} (hk : k ≤ 308) (hn : n ≤ 308) (hq : 0 ≤ q)
    (hsmall : q ≤ 2 ^ 64) (h : Within unit 0 x.size q) :
    Proper ((x.divSize (powerOfTen k)).divSize (powerOfTen n)) ∧
      Within (9 * unit) (3 * tiny) ((x.divSize (powerOfTen k)).divSize (powerOfTen n)).size
        (q / 10 ^ (k + n)) := by
  have htiny := tiny_pos
  have hone : (1 : ℚ) ≤ 10 ^ k := one_le_pow₀ (by norm_num)
  have hfirst : q / 10 ^ k ≤ q := div_le_self hq hone
  have hsize : x.size ≤ 2 ^ 66 := by
    have hhigh := (abs_le.1 h).2
    rw [unit_eq] at hhigh
    linarith
  obtain ⟨-, hnear⟩ := divSize_within hk (by norm_num [unit_eq]) le_rfl hq hsize h
  have hsize : (x.divSize (powerOfTen k)).size ≤ 2 ^ 66 := by
    have hhigh := (abs_le.1 hnear).2
    have hle := tiny_le_one
    rw [unit_eq] at hhigh
    linarith
  obtain ⟨hproper, hnear⟩ := divSize_within hn (by norm_num [unit_eq]) (by linarith)
    (by positivity) hsize hnear
  rw [div_div, ← pow_add] at hnear
  exact ⟨hproper, hnear.mono (by positivity) (by linarith) (by linarith)⟩

/-- One division is enough for powers up to 308, and two are for all that come up. -/
theorem divided_within (hv : v ≠ 0) (hlt : v < 2 ^ 64) (hn : n ≤ 616) :
    Proper (divided 4 (ofRatio false v 1) n) ∧
      Within (9 * unit) (3 * tiny) (divided 4 (ofRatio false v 1) n).size (v / 10 ^ n) := by
  have hbegin := significand_within hv hlt
  have hlt : (v : ℚ) < 2 ^ 64 := by exact_mod_cast hlt
  have hpos : (0 : ℚ) < v := by exact_mod_cast Nat.pos_of_ne_zero hv
  have hsize : (ofRatio false v 1).size ≤ 2 ^ 66 := by
    have hhigh := (abs_le.1 hbegin).2
    rw [unit_eq] at hhigh
    linarith
  generalize ofRatio false v 1 = x at hbegin hsize ⊢
  have htiny := tiny_pos
  rw [divided]
  by_cases hsmall : n ≤ 308
  · rw [if_pos hsmall]
    obtain ⟨hproper, hnear⟩ :=
      divSize_within hsmall (by norm_num [unit_eq]) le_rfl hpos.le hsize hbegin
    exact ⟨hproper, hnear.mono (by positivity) (by norm_num [unit_eq]) (by linarith)⟩
  · have hnonzero := isZero_of_size_pos (size_pos_of_within hpos hbegin (by norm_num [unit_eq]))
    obtain ⟨k, rfl⟩ := Nat.exists_eq_add_of_lt (not_le.1 hsmall)
    rw [if_neg hsmall, hnonzero, if_neg (by decide), divided, if_pos (by omega)]
    have hbehind := divSize_divSize_within (k := 308) (n := k + 1) le_rfl (by omega) hpos.le hlt.le
      hbegin
    rwa [show 308 + k + 1 - 308 = k + 1 by omega]

theorem scaled?_of_neg (hv : v ≠ 0) (hlt : v < 2 ^ 64) (hneg : power < 0) (hpower : -616 ≤ power) :
    ∃ y, scaled? v power = some y ∧ Proper y ∧
      Within (9 * unit) (3 * tiny) y.size (v * 10 ^ power) := by
  obtain ⟨n, hn⟩ := Int.eq_ofNat_of_zero_le (show 0 ≤ -power by omega)
  obtain rfl : power = -(n : Int) := by omega
  obtain ⟨hproper, hnear⟩ := divided_within hv hlt (n := n) (by omega)
  rw [zpow_neg, zpow_natCast, ← div_eq_mul_inv]
  refine ⟨_, ?_, hproper, hnear⟩
  rw [scaled?]
  dsimp only
  rw [if_pos hneg, Int.natAbs_neg, Int.natAbs_natCast]

theorem isInfinite_of_proper (h : Proper x) : x.isInfinite = false := by
  cases x with
  | finite negative m e => rfl
  | nan => rfl
  | infinite negative => exact h.elim

theorem scaled?_eq_mulSize (hn : n ≤ 308) : scaled? v n =
    if ((ofRatio false v 1).mulSize (powerOfTen n)).isInfinite then none
    else some ((ofRatio false v 1).mulSize (powerOfTen n)) := by
  rw [scaled?]
  dsimp only
  rw [if_neg (by omega), if_pos (by omega), Int.natAbs_natCast]

theorem product_within (hv : v ≠ 0) (hlt : v < 2 ^ 64) (hn : n ≤ 308) :
    Within (unit + unit + unit * unit) 0 ((ofRatio false v 1).size * (powerOfTen n).size)
      (v * 10 ^ n) := by
  have hproduct :=
    (significand_within hv hlt).mul v.cast_nonneg (by positivity) (powerOfTen_within hn)
  rwa [zero_mul] at hproduct

/-- A product that is not too large is close to the exact one. -/
theorem scaled?_of_nonneg (hv : v ≠ 0) (hlt : v < 2 ^ 64) (hpos : 0 ≤ power) (hpower : power ≤ 308)
    (hsome : scaled? v power ≠ none) : ∃ y, scaled? v power = some y ∧ Proper y ∧
      Within (9 * unit) (3 * tiny) y.size (v * 10 ^ power) := by
  obtain ⟨n, rfl⟩ := Int.eq_ofNat_of_zero_le hpos
  have hn : n ≤ 308 := by omega
  have hproduct := product_within hv hlt hn
  have hone : (1 : ℚ) ≤ v := by exact_mod_cast Nat.pos_of_ne_zero hv
  have hten : (1 : ℚ) ≤ 10 ^ n := one_le_pow₀ (by norm_num)
  have hexact : (1 : ℚ) ≤ v * 10 ^ n := one_le_mul_of_one_le_of_one_le hone hten
  rw [scaled?_eq_mulSize hn] at hsome ⊢
  rw [zpow_natCast]
  rcases mulSize_spec (ofRatio false v 1) (powerOfTen n) with ⟨hproper, hnear⟩ | ⟨hinfinite, -⟩
  · have hhalf : 1 / 2 ≤ (ofRatio false v 1).size * (powerOfTen n).size := by
      have hlow := (abs_le.1 hproduct).1
      rw [unit_eq] at hlow
      linarith
    have hnear := (hnear.within_of_le (normal_of_half_le hhalf)).trans unit_pos.le hproduct
    rw [isInfinite_of_proper hproper]
    refine ⟨_, rfl, hproper, hnear.mono (by positivity) (by norm_num [unit_eq]) ?_⟩
    linarith [tiny_pos]
  · rw [hinfinite] at hsome
    exact absurd rfl hsome

/-- There is a product if the exact one is a little below the overflow. -/
theorem scaled?_ne_none (hv : v ≠ 0) (hlt : v < 2 ^ 64) (hpos : 0 ≤ power) (hpower : power ≤ 308)
    (hroom : (v * 10 ^ power : ℚ) * (1 + 3 * unit) < overflow) : scaled? v power ≠ none := by
  obtain ⟨n, rfl⟩ := Int.eq_ofNat_of_zero_le hpos
  have hn : n ≤ 308 := by omega
  have hhigh := (abs_le.1 (product_within hv hlt hn)).2
  rw [zpow_natCast] at hroom
  have hexact : (0 : ℚ) ≤ v * 10 ^ n := by positivity
  have hbelow : (ofRatio false v 1).size * (powerOfTen n).size < overflow := by
    refine lt_of_le_of_lt ?_ hroom
    rw [unit_eq] at hhigh ⊢
    linarith
  obtain ⟨hproper, -⟩ := (mulSize_spec (ofRatio false v 1) (powerOfTen n)).resolve_right
    fun h => absurd h.2 (not_le.2 hbelow)
  rw [scaled?_eq_mulSize hn, isInfinite_of_proper hproper]
  exact Option.some_ne_none _

end Casework.Json.Literal
