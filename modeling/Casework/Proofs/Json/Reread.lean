import Casework.Proofs.Json.Fraction

/-!
# What is read of a written fraction

A double that is written and read again keeps its sign, and its size changes by a few units in the
last place at most. It never grows beyond the largest double, although some products on the way come
close to that.
-/

namespace Casework

open Double (Fits Proper Within unit tiny Written shortest maxExponent)

/-- The sign. -/
def Double.isNegative : Double → Bool
  | .finite negative _ _ => negative
  | .infinite negative => negative
  | .nan => false

/-- Equal up to the errors of a few roundings. -/
structure Double.Near (x y : Double) : Prop where
  proper : Proper y
  sign : y.isNegative = x.isNegative
  close : Within (16 * unit) (8 * tiny) y.size x.size

namespace Json.Literal

variable {digits m v : Nat} {power p e : Int} {negative : Bool}

/-! ### Sizes -/

theorem within_of_written (hfits : Fits m e) (h : Written m e digits power) :
    Within unit tiny (digits * 10 ^ power) (m * 2 ^ e) := by
  have hstep : (0 : ℚ) < 2 ^ e := by positivity
  refine h.near.trans ?_
  rcases hfits.full with hfull | rfl
  · have hfull : (2 ^ 52 : ℚ) ≤ m := by exact_mod_cast hfull
    have hfull : (2 ^ 52 * 2 ^ e : ℚ) ≤ m * 2 ^ e := mul_le_mul_of_nonneg_right hfull hstep.le
    have htiny := Double.tiny_pos
    rw [Double.unit_eq]
    linarith
  · have hleast : Double.minExponent - 1 = -1075 := rfl
    have hsize := mul_nonneg m.cast_nonneg hstep.le
    rw [half_two_pow, hleast, ← tiny]
    exact le_add_of_nonneg_left (mul_nonneg hsize Double.unit_pos.le)

theorem scaled?_max_ne_none : ∀ m ∈ [2 ^ 53 - 3, 2 ^ 53 - 2, 2 ^ 53 - 1],
    scaled? (shortest .toEven m 971).1 (shortest .toEven m 971).2 ≠ none := by
  decide +kernel

theorem written_lt_overflow (hfits : Fits m e) (h : Written m e digits power)
    (hroom : e < 971 ∨ m + 4 ≤ 2 ^ 53) : (digits * 10 ^ power : ℚ) * (1 + 3 * unit) < overflow := by
  have hhigh := (abs_le.1 h.near).2
  have hstep : (0 : ℚ) < 2 ^ e := by positivity
  have hpos : (0 : ℚ) < 2 ^ maxExponent := by positivity
  rw [overflow, Double.unit_eq]
  rcases hroom with hsmall | hroom
  · have hhalf : (2 : ℚ) ^ e ≤ 2 ^ (maxExponent - 1) :=
      zpow_le_zpow_right₀ (by norm_num) (Int.le_sub_one_of_lt hsmall)
    rw [← half_two_pow] at hhalf
    have hm : (m + 1 : ℚ) ≤ 2 ^ 53 := by exact_mod_cast hfits.mantissa_lt
    have hm : ((m + 1) * 2 ^ e : ℚ) ≤ 2 ^ 53 * 2 ^ e := mul_le_mul_of_nonneg_right hm hstep.le
    linarith
  · have hle : (2 : ℚ) ^ e ≤ 2 ^ maxExponent := zpow_le_zpow_right₀ (by norm_num) hfits.exponent_le
    have hm : (m + 4 : ℚ) ≤ 2 ^ 53 := by exact_mod_cast hroom
    have hm : ((m + 4) * 2 ^ e : ℚ) ≤ 2 ^ 53 * 2 ^ e := mul_le_mul_of_nonneg_right hm hstep.le
    linarith

/-- What is written of a double is never too large to be read. The products nearest to the overflow
are those of the three largest doubles. -/
theorem scaled?_shortest_ne_none (hm : m ≠ 0) (hfits : Fits m e)
    (hpos : 0 ≤ (shortest .toEven m e).2) :
    scaled? (shortest .toEven m e).1 (shortest .toEven m e).2 ≠ none := by
  have hwritten := Double.shortest_spec .toEven hm hfits
  obtain ⟨-, hpower⟩ := hwritten.power_bounds hm hfits
  have hmax : e ≤ 971 := hfits.exponent_le
  have hlt := hfits.mantissa_lt
  by_cases hroom : e < 971 ∨ m + 4 ≤ 2 ^ 53
  · exact scaled?_ne_none hwritten.pos hwritten.lt hpos (by omega)
      (written_lt_overflow hfits hwritten hroom)
  · obtain rfl : e = 971 := by omega
    refine scaled?_max_ne_none m ?_
    simp only [List.mem_cons, List.not_mem_nil]
    omega

/-- The digits and the power that are read make the number that was written. -/
theorem scaled?_near (hm : m ≠ 0) (hfits : Fits m e) (hlt : v < 2 ^ 64)
    (hvalue : (v * 10 ^ p : ℚ) = (shortest .toEven m e).1 * 10 ^ (shortest .toEven m e).2)
    (hp : p = -1 ∨ v = (shortest .toEven m e).1 ∧ p = (shortest .toEven m e).2) :
    ∃ y, scaled? v p = some y ∧ Proper y ∧ Within (16 * unit) (8 * tiny) y.size (m * 2 ^ e) := by
  have hwritten := Double.shortest_spec .toEven hm hfits
  obtain ⟨hlow, hhigh⟩ := hwritten.power_bounds hm hfits
  have hv : v ≠ 0 := by
    rintro rfl
    rw [Nat.cast_zero, zero_mul] at hvalue
    have hne : ((shortest .toEven m e).1 : ℚ) ≠ 0 := Nat.cast_ne_zero.2 hwritten.pos
    exact (mul_ne_zero hne (by positivity)) hvalue.symm
  obtain ⟨y, hread, hproper, hnear⟩ : ∃ y, scaled? v p = some y ∧ Proper y ∧
      Within (9 * unit) (3 * tiny) y.size (v * 10 ^ p) := by
    rcases Int.lt_or_le p 0 with hneg | hpos
    · exact scaled?_of_neg hv hlt hneg (by omega)
    · obtain ⟨rfl, rfl⟩ := hp.resolve_left (by omega)
      exact scaled?_of_nonneg hv hlt hpos (by omega) (scaled?_shortest_ne_none hm hfits hpos)
  rw [hvalue] at hnear
  have hunit := Double.unit_pos
  have htiny := Double.tiny_pos
  refine ⟨y, hread, hproper, (hnear.trans (by positivity) (within_of_written hfits hwritten)).mono
    (by positivity) ?_ ?_⟩
  · norm_num [Double.unit_eq]
  · rw [Double.unit_eq]
    linarith

theorem withSign_near {x y : Double} (hx : x = .finite negative m e) (hy : Proper y)
    (hclose : Within (16 * unit) (8 * tiny) y.size (m * 2 ^ e)) : x.Near (y.withSign negative) := by
  subst hx
  cases y with
  | finite _ m' e' => exact ⟨hy, rfl, hclose⟩
  | nan => exact hy.elim
  | infinite _ => exact hy.elim

theorem scaled?_zero (h : p = -1 ∨ p = 0) :
    scaled? 0 p = some (.finite false 0 Double.minExponent) := by
  rcases h with rfl | rfl <;> decide +kernel

theorem shortest_zero (e : Int) : shortest .toEven 0 e = (0, 0) := if_pos rfl

/-- What is read of the digits of a double. -/
theorem double?_of_denotes {l : Literal} (hfits : Fits m e)
    (hl : l.Denotes (shortest .toEven m e).1 (shortest .toEven m e).2) :
    ∃ y, l.double? = some (y.withSign l.negative) ∧ Proper y ∧
      Within (16 * unit) (8 * tiny) y.size (m * 2 ^ e) := by
  obtain ⟨v, p, hdouble, hvalue, hlt, hp⟩ := hl.scaled
  rw [hdouble]
  by_cases hm : m = 0
  · subst hm
    rw [shortest_zero] at hvalue hp
    have hv : v = 0 := by
      rw [Nat.cast_zero, zero_mul] at hvalue
      exact Nat.cast_eq_zero.1 ((mul_eq_zero.1 hvalue).resolve_right (by positivity))
    rw [hv, scaled?_zero (hp.imp_right And.right)]
    refine ⟨_, rfl, ⟨by norm_num, le_rfl, by decide, .inr rfl⟩, ?_⟩
    have htiny := Double.tiny_pos
    simp only [Within, Double.size, Nat.cast_zero, zero_mul, sub_self, abs_zero, zero_add]
    positivity
  · obtain ⟨y, hread, hproper, hclose⟩ := scaled?_near hm hfits hlt hvalue hp
    exact ⟨y, by rw [hread]; rfl, hproper, hclose⟩

theorem Denotes.value_eq {l : Literal} (h : l.Denotes digits power) :
    l.value = (l.double?).elim .invalid .real := by
  rw [value, h.fractional, Bool.false_and, if_neg Bool.false_ne_true]

end Json.Literal

open Json (RereadAs)

/-- A finite double is read back up to rounding. -/
theorem Double.exists_near {x : Double} (hx : Proper x) : ∃ y, RereadAs x y ∧ x.Near y := by
  cases x with
  | nan => exact hx.elim
  | infinite negative => exact hx.elim
  | finite negative m e =>
    have hwritten : ∀ hm : m ≠ 0, Written m e (shortest .toEven m e).1 (shortest .toEven m e).2 :=
      fun hm => Double.shortest_spec .toEven hm hx
    obtain ⟨l, hnegative, hl⟩ : ∃ l : Json.Literal, l.negative = negative ∧
        l.Denotes (shortest .toEven m e).1 (shortest .toEven m e).2 := by
      by_cases hm : m = 0
      · subst hm
        rw [Json.Literal.shortest_zero]
        exact Json.Literal.exists_denotes negative (by decide) (fun _ => rfl) (by decide)
      · obtain ⟨hlow, hhigh⟩ := (hwritten hm).power_bounds hm hx
        exact Json.Literal.exists_denotes negative (hwritten hm).lt
          (fun h => absurd h (hwritten hm).pos) ⟨by omega, by omega⟩
    have hchars : (Double.finite negative m e).scientific.toList = l.signedChars := by
      rw [scientific, String.toList_ofList, Json.Literal.signedChars, hl.chars, hnegative, signText]
      cases negative <;> rfl
    obtain ⟨y, hdouble, hproper, hclose⟩ := Json.Literal.double?_of_denotes hx hl
    refine ⟨y.withSign negative, ⟨?_, ?_⟩, Json.Literal.withSign_near rfl hproper hclose⟩
    · rw [hchars]
      exact hl.formed.signedChars_cons
    · intro rest hrest
      have hread := Json.readValue_signedChars hl.formed hrest
      rwa [hl.value_eq, hdouble, hnegative, ← hchars] at hread

/-- The double that is read of what is written. -/
def Double.reread (x : Double) : Double :=
  match Json.document? x.scientific with
  | some (.real y) => y
  | _ => x

theorem Double.reread_eq {x y : Double} (h : RereadAs x y) : x.reread = y := by
  have hread := Json.document?_of_legible (f := fun _ => y) (.real h)
  have hcompact : (Json.real x).compact = x.scientific := String.ofList_toList
  rw [hcompact] at hread
  rw [reread, hread]
  rfl

theorem Double.rereadAs_reread {x : Double} (hx : Proper x) : RereadAs x x.reread := by
  obtain ⟨y, hread, -⟩ := exists_near hx
  rwa [reread_eq hread]

end Casework
