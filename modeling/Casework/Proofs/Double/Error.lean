import Casework.Proofs.Double.Rounding

/-!
# Errors of rounded products and quotients

Numbers are compared by a relative and an absolute error. Errors add up along a chain of
computations: a product or a quotient has the relative errors of both its parts, and rounding it adds
one more.
-/

namespace Casework.Double

variable {r s δ γ x y z q t : ℚ} {a b : Double}

/-- The relative error of rounding. -/
def unit : ℚ := 2 ^ (-53 : Int)

/-- The absolute error of rounding, close to zero. -/
def tiny : ℚ := 2 ^ (-1075 : Int)

theorem unit_pos : 0 < unit := by
  rw [unit]
  positivity

theorem unit_eq : unit = 1 / 2 ^ 53 := by
  rw [unit]
  norm_num

theorem tiny_pos : 0 < tiny := by
  rw [tiny]
  positivity

theorem tiny_le_one : tiny ≤ 1 := zpow_le_one_of_nonpos₀ (by norm_num) (by decide)

/-- `y` is `q` with a relative and an absolute error. -/
def Within (r δ y q : ℚ) : Prop := |y - q| ≤ q * r + δ

theorem Within.mono (h : Within r δ y q) (hq : 0 ≤ q) (hr : r ≤ s) (hδ : δ ≤ γ) :
    Within s γ y q := by
  have hmul := mul_le_mul_of_nonneg_left hr hq
  exact h.trans (by linarith)

theorem Within.trans (hr : 0 ≤ r) (h : Within r δ y z) (h' : Within s γ z q) :
    Within (r + s + r * s) (δ + γ * (1 + r)) y q := by
  have hz := mul_le_mul_of_nonneg_right (abs_le.1 h').2 hr
  have hsum := (abs_sub_le y z q).trans (add_le_add h h')
  rw [Within]
  linarith

theorem Within.mul (hq : 0 ≤ q) (ht : 0 ≤ t) (h : Within r δ y q) (h' : Within s 0 z t) :
    Within (r + s + r * s) (δ * (t * (1 + s))) (y * z) (q * t) := by
  have hz : |z| ≤ t * (1 + s) := by
    have hsum := abs_add_le (z - t) t
    rw [sub_add_cancel, abs_of_nonneg ht] at hsum
    have := hsum.trans (add_le_add_left h' t)
    linarith
  calc |y * z - q * t| = |(y - q) * z + q * (z - t)| := by ring_nf
    _ ≤ |y - q| * |z| + q * |z - t| := by
        rw [← abs_mul, ← abs_of_nonneg hq, ← abs_mul, abs_of_nonneg hq]
        exact abs_add_le _ _
    _ ≤ (q * r + δ) * (t * (1 + s)) + q * (t * s + 0) :=
        add_le_add (mul_le_mul h hz (abs_nonneg z) ((abs_nonneg _).trans h))
          (mul_le_mul_of_nonneg_left h' hq)
    _ = q * t * (r + s + r * s) + δ * (t * (1 + s)) := by ring

/-- The error of a divisor counts twice at most. -/
theorem Within.inv (hs : 0 ≤ s) (hhalf : s ≤ 1 / 2) (ht : 0 < t) (h : Within s 0 z t) :
    Within (2 * s) 0 z⁻¹ t⁻¹ := by
  have hz : t / 2 ≤ z := by
    have hmul := mul_le_mul_of_nonneg_left hhalf ht.le
    have hlow := (abs_le.1 h).1
    linarith
  have hpos : 0 < z := by linarith
  have habs : |z⁻¹ - t⁻¹| = |z - t| / (z * t) := by
    rw [inv_sub_inv hpos.ne' ht.ne', abs_div, abs_sub_comm, abs_of_pos (mul_pos hpos ht)]
  rw [Within, habs, div_le_iff₀ (mul_pos hpos ht)]
  calc |z - t| ≤ t * s + 0 := h
    _ ≤ 2 * s * z := by nlinarith
    _ = (t⁻¹ * (2 * s) + 0) * (z * t) := by field_simp; ring

theorem NearestTo.within (h : NearestTo q y) (hq : 0 ≤ q) : Within unit tiny y q := by
  rcases h with h | ⟨-, h⟩
  · exact h.trans (le_add_of_nonneg_right tiny_pos.le)
  · exact h.trans (le_add_of_nonneg_left (mul_nonneg hq unit_pos.le))

theorem NearestTo.within_of_le (h : NearestTo q y) (hq : 2 ^ (-1022 : Int) ≤ q) :
    Within unit 0 y q := by
  rcases h with h | ⟨hlt, -⟩
  · exact h.trans (le_add_of_nonneg_right le_rfl)
  · exact absurd hq (not_le.2 hlt)

/-! ### Products and quotients of doubles -/

theorem size_nonneg (a : Double) : 0 ≤ a.size := by
  cases a with
  | finite negative m e =>
    rw [size]
    positivity
  | nan => exact le_rfl
  | infinite negative => exact le_rfl

theorem ratio_spec (a : Double) : 0 < a.ratio.2 ∧ (a.ratio.1 / a.ratio.2 : ℚ) = a.size := by
  cases a with
  | finite negative m e =>
    refine ⟨Nat.pow_pos (by decide), ?_⟩
    simp only [ratio, size, Nat.cast_mul, cast_twoTo]
    rw [mul_div_assoc, pow_toNat_div]
  | nan => simp [ratio, size]
  | infinite negative => simp [ratio, size]

theorem mulSize_spec (a b : Double) :
    (Proper (a.mulSize b) ∧ NearestTo (a.size * b.size) (a.mulSize b).size) ∨
      a.mulSize b = .infinite false ∧
        (2 ^ 53 - 1 / 2 : ℚ) * 2 ^ maxExponent ≤ a.size * b.size := by
  obtain ⟨hapos, ha⟩ := ratio_spec a
  obtain ⟨hbpos, hb⟩ := ratio_spec b
  have hspec := ofRatio_spec false (a.ratio.1 * b.ratio.1) (Nat.mul_pos hapos hbpos)
  rwa [Nat.cast_mul, Nat.cast_mul, mul_div_mul_comm, ha, hb] at hspec

theorem divSize_spec (a : Double) {b : Double} (hb : 0 < b.size) :
    (Proper (a.divSize b) ∧ NearestTo (a.size / b.size) (a.divSize b).size) ∨
      a.divSize b = .infinite false ∧
        (2 ^ 53 - 1 / 2 : ℚ) * 2 ^ maxExponent ≤ a.size / b.size := by
  obtain ⟨hapos, ha⟩ := ratio_spec a
  obtain ⟨hbpos, hratio⟩ := ratio_spec b
  have hpos : 0 < b.ratio.1 := by
    refine Nat.pos_of_ne_zero fun hzero => hb.ne' ?_
    rw [← hratio, hzero, Nat.cast_zero, zero_div]
  have hspec := ofRatio_spec false (a.ratio.1 * b.ratio.2) (Nat.mul_pos hapos hpos)
  rwa [Nat.cast_mul, Nat.cast_mul, mul_div_mul_comm, ha, ← inv_div, hratio] at hspec

end Casework.Double
