import Casework.Proofs.Decimal.Text
import Casework.Proofs.Json.RoundTrip
import Casework.Proofs.Json.Scaling

/-!
# Fractions are read back up to rounding

Wherever its point stands and whether it has an exponent, what is written of a double is a number
whose digits all have room, and its digits and power of ten make the same number as those that were
written. What remains are the errors of reading.
-/

namespace Casework.Json.Literal

open Double (zeros scientificChars placed)
open Nat (ofDigitChars)

variable {digits m v : Nat} {power e : Int} {negative : Bool} {cs ds : List Char} {l : Literal}

/-! ### The digits of a literal -/

theorem foldl_addWhole (hlt : ofDigitChars 10 ds v < twoTo 64) :
    ds.foldl Significand.addWhole ⟨v, power, false⟩ = ⟨ofDigitChars 10 ds v, power, false⟩ := by
  induction ds generalizing v with
  | nil => rfl
  | cons c ds ih =>
    rw [Nat.ofDigitChars_cons, Nat.mul_comm 10 v] at hlt ⊢
    have hroom : v * 10 + digit c < twoTo 64 :=
      Nat.lt_of_le_of_lt (Decimal.le_ofDigitChars ds _) hlt
    rw [List.foldl_cons, Significand.addWhole, Bool.false_or, if_neg (by simpa using hroom)]
    exact ih hlt

theorem foldl_addFraction (hlt : ofDigitChars 10 ds v < twoTo 64) :
    ds.foldl Significand.addFraction ⟨v, power, false⟩ =
      ⟨ofDigitChars 10 ds v, power - ds.length, false⟩ := by
  induction ds generalizing v power with
  | nil => simp
  | cons c ds ih =>
    rw [Nat.ofDigitChars_cons, Nat.mul_comm 10 v] at hlt ⊢
    have hroom : v * 10 + digit c < twoTo 64 :=
      Nat.lt_of_le_of_lt (Decimal.le_ofDigitChars ds _) hlt
    rw [List.foldl_cons, Significand.addFraction, Bool.false_or, if_neg (by simpa using hroom)]
    refine (ih hlt).trans ?_
    rw [List.length_cons, Nat.cast_add, Nat.cast_one, add_comm (ds.length : Int), sub_sub]

/-- All digits of a literal, those before its point and those behind. -/
def allDigits (l : Literal) : List Char := l.whole ++ l.fraction.getD []

/-- Digits that have room are all taken up. -/
theorem significand_eq (hlt : ofDigitChars 10 l.allDigits 0 < twoTo 64) : l.significand =
    ⟨ofDigitChars 10 l.allDigits 0, -((l.fraction.getD []).length : Int), false⟩ := by
  rw [allDigits, Nat.ofDigitChars_append] at hlt ⊢
  have hwhole := Nat.lt_of_le_of_lt (Decimal.le_ofDigitChars _ _) hlt
  rw [significand, foldl_addWhole hwhole]
  dsimp only
  rw [foldl_addFraction hlt, zero_sub]

/-- The literal has the characters that are written of the digits, and the same value. -/
structure Denotes (l : Literal) (digits : Nat) (power : Int) : Prop where
  formed : l.Formed
  chars : l.chars = scientificChars digits power
  fractional : (l.fraction.isNone && l.exponent.isNone) = false
  scaled : ∃ v p, l.double? = (scaled? v p).map (·.withSign l.negative) ∧
    (v * 10 ^ p : ℚ) = digits * 10 ^ power ∧ v < 2 ^ 64 ∧ (p = -1 ∨ v = digits ∧ p = power)

theorem double?_eq (hvalue : ofDigitChars 10 (cs ++ ds) 0 = v) (hpower : -(ds.length : Int) = power)
    (hlt : v < 2 ^ 64) : double? ⟨negative, cs, some ds, none⟩ =
      (scaled? v power).map (·.withSign negative) := by
  have hsignificand : significand ⟨negative, cs, some ds, none⟩ = ⟨v, power, false⟩ := by
    have hall : ofDigitChars 10 (allDigits ⟨negative, cs, some ds, none⟩) 0 = v := hvalue
    rw [significand_eq (hall.trans_lt hlt), hall, ← hpower]
    rfl
  rw [double?, hsignificand]

theorem digits_zeros_append (k : Nat) (h : Digits ds) : Digits (zeros k ++ ds) := by
  refine ⟨List.append_ne_nil_of_right_ne_nil _ h.1, fun d hd => ?_⟩
  rcases List.mem_append.1 hd with hd | hd
  · rw [List.eq_of_mem_replicate hd]
    rfl
  · exact h.2 d hd

theorem whole_append_zeros (hne : digits ≠ 0) (k : Nat) :
    Whole (Nat.toDigits 10 digits ++ zeros k) := by
  cases hds : Nat.toDigits 10 digits with
  | nil => exact absurd hds Nat.toDigits_ne_nil
  | cons c cs =>
    refine .inr ⟨c, cs ++ zeros k, rfl, ?_, fun d hd => ?_⟩
    · exact toDigits_head (Nat.pos_of_ne_zero hne) c (by rw [hds]; rfl)
    · rcases List.mem_append.1 hd with hd | hd
      · exact isDigit_of_mem_toDigits (hds ▸ hd)
      · rw [List.eq_of_mem_replicate hd]
        rfl

theorem whole_take (hne : digits ≠ 0) {k : Nat} (hk : k ≠ 0) :
    Whole ((Nat.toDigits 10 digits).take k) := by
  cases hds : Nat.toDigits 10 digits with
  | nil => exact absurd hds Nat.toDigits_ne_nil
  | cons c cs =>
    obtain ⟨k, rfl⟩ := Nat.exists_eq_succ_of_ne_zero hk
    refine .inr ⟨c, cs.take k, rfl, ?_, fun d hd => ?_⟩
    · exact toDigits_head (Nat.pos_of_ne_zero hne) c (by rw [hds]; rfl)
    · exact isDigit_of_mem_toDigits (hds ▸ List.mem_of_mem_take hd)

theorem digits_drop {k : Nat} (hk : k < (Nat.toDigits 10 digits).length) :
    Digits ((Nat.toDigits 10 digits).drop k) := by
  refine ⟨fun h => ?_, fun d hd => isDigit_of_mem_toDigits (List.mem_of_mem_drop hd)⟩
  have := List.drop_eq_nil_iff.1 h
  omega

theorem lt_ten_pow_length (n : Nat) : n < 10 ^ (Nat.toDigits 10 n).length :=
  (Nat.length_toDigits_le_iff (by decide) (List.length_pos_of_ne_nil Nat.toDigits_ne_nil)).1 le_rfl

theorem formed_pointed (negative : Bool) (hcs : Whole cs) (hds : Digits ds) :
    Formed ⟨negative, cs, some ds, none⟩ := by
  refine ⟨hcs, ?_, ?_⟩
  · intro ds' hds'
    obtain rfl := Option.some.inj hds'
    exact hds
  · intro e he
    cases he

/-! ### Where the point stands -/

/-- A whole number with a zero behind its point. -/
theorem denotes_plain (negative : Bool) (hzero : digits = 0 → power = 0) (hpower : 0 ≤ power)
    (hwhole : ((Nat.toDigits 10 digits).length : Int) + power ≤ 16) :
    Denotes ⟨negative, Nat.toDigits 10 digits ++ zeros power.toNat, some ['0'], none⟩ digits
      power := by
  obtain ⟨k, rfl⟩ := Int.eq_ofNat_of_zero_le hpower
  rw [Int.toNat_natCast]
  have hvalue : ofDigitChars 10 (Nat.toDigits 10 digits ++ zeros k ++ ['0']) 0 =
      10 * (10 ^ k * digits) := by
    rw [Nat.ofDigitChars_append, Nat.ofDigitChars_append, Nat.ofDigitChars_ten_toDigits, zeros,
      Nat.ofDigitChars_replicate_zero]
    rfl
  have hsmall : 10 ^ k * digits < 10 ^ 16 := by
    calc 10 ^ k * digits < 10 ^ k * 10 ^ (Nat.toDigits 10 digits).length :=
          Nat.mul_lt_mul_of_pos_left (lt_ten_pow_length digits) (Nat.pow_pos (by decide))
      _ = 10 ^ (k + (Nat.toDigits 10 digits).length) := (Nat.pow_add ..).symm
      _ ≤ 10 ^ 16 := Nat.pow_le_pow_right (by decide) (by omega)
  have hcs : Whole (Nat.toDigits 10 digits ++ zeros k) := by
    by_cases hne : digits = 0
    · have hk : k = 0 := by exact_mod_cast hzero hne
      subst hne hk
      exact .inl rfl
    · exact whole_append_zeros hne k
  have hds : Digits ['0'] := ⟨List.cons_ne_nil _ _, List.forall_mem_singleton.2 rfl⟩
  refine ⟨formed_pointed negative hcs hds, ?_, rfl, ?_⟩
  · rw [scientificChars]
    dsimp only
    rw [if_pos ⟨hpower, hwhole⟩, placed, if_pos hpower, Int.toNat_natCast]
    rfl
  · have hlt : 10 * (10 ^ k * digits) < twoTo 64 := by
      have : 10 * 10 ^ 16 < twoTo 64 := by decide
      omega
    refine ⟨10 * (10 ^ k * digits), -1, ?_, ?_, hlt, .inl rfl⟩
    · exact double?_eq hvalue rfl hlt
    · push_cast
      rw [zpow_natCast, zpow_neg_one]
      ring

/-- A point among the digits. -/
theorem denotes_placed (negative : Bool) (hlt : digits < 2 ^ 64) (hne : digits ≠ 0)
    (hpower : power < 0) {whole : Nat} (hpos : whole ≠ 0)
    (hwhole : ((Nat.toDigits 10 digits).length : Int) + power = whole) (hle : whole ≤ 16) :
    Denotes ⟨negative, (Nat.toDigits 10 digits).take whole,
      some ((Nat.toDigits 10 digits).drop whole), none⟩ digits power := by
  have hvalue : ofDigitChars 10 ((Nat.toDigits 10 digits).take whole ++
      (Nat.toDigits 10 digits).drop whole) 0 = digits := by
    rw [List.take_append_drop, Nat.ofDigitChars_ten_toDigits]
  have hbehind : -((((Nat.toDigits 10 digits).drop whole).length : Nat) : Int) = power := by
    rw [List.length_drop]
    omega
  refine ⟨formed_pointed negative (whole_take hne hpos) (digits_drop (by omega)), ?_, rfl, digits,
    power, double?_eq hvalue hbehind hlt, rfl, hlt, .inr ⟨rfl, rfl⟩⟩
  rw [scientificChars]
  dsimp only
  rw [hwhole, if_neg (by omega), if_pos (by omega), placed, hwhole, if_neg (by omega),
    if_pos (by omega), Int.toNat_natCast]
  exact congrArg _ (List.append_nil _)

/-- Zeros between the point and the digits. -/
theorem denotes_small (negative : Bool) (hlt : digits < 2 ^ 64) {missing : Nat}
    (hwhole : ((Nat.toDigits 10 digits).length : Int) + power = -missing) (hle : missing < 5) :
    Denotes ⟨negative, ['0'], some (zeros missing ++ Nat.toDigits 10 digits), none⟩ digits
      power := by
  have hvalue :
      ofDigitChars 10 (['0'] ++ (zeros missing ++ Nat.toDigits 10 digits)) 0 = digits := by
    rw [Nat.ofDigitChars_append, Nat.ofDigitChars_append, zeros, Nat.ofDigitChars_replicate_zero]
    exact Nat.ofDigitChars_ten_toDigits
  have hbehind : -(((zeros missing ++ Nat.toDigits 10 digits).length : Nat) : Int) = power := by
    rw [List.length_append, zeros, List.length_replicate]
    omega
  have hlength := List.length_pos_of_ne_nil (Nat.toDigits_ne_nil (b := 10) (n := digits))
  have hds : Digits (zeros missing ++ Nat.toDigits 10 digits) :=
    digits_zeros_append missing (digits_toDigits digits)
  refine ⟨formed_pointed negative (.inl rfl) hds, ?_, rfl, digits, power,
    double?_eq hvalue hbehind hlt, rfl, hlt, .inr ⟨rfl, rfl⟩⟩
  rw [scientificChars]
  dsimp only
  rw [hwhole, if_neg (by omega), if_pos (by omega), placed, hwhole, if_neg (by omega),
    if_neg (by omega), Int.neg_neg, Int.toNat_natCast]
  exact congrArg _ (List.append_nil _)

/-- The number with an exponent: its whole part is the first digit. -/
def scientific (negative : Bool) (ds : List Char) (exponent : Int) : Literal where
  negative := negative
  whole := ds.take 1
  fraction := if ds.length = 1 then none else some (ds.drop 1)
  exponent := some (exponent < 0, Nat.toDigits 10 exponent.natAbs)

theorem fraction_scientific (negative : Bool) (ds : List Char) (exponent : Int) :
    (scientific negative ds exponent).fraction.getD [] = ds.drop 1 := by
  rw [scientific]
  by_cases hone : ds.length = 1
  · rw [if_pos hone]
    exact (List.drop_eq_nil_of_le hone.le).symm
  · rw [if_neg hone, Option.getD_some]

theorem double?_scientific (hlt : digits < 2 ^ 64) {exponent : Int}
    (hbig : exponent.natAbs < twoTo 31) :
    double? (scientific negative (Nat.toDigits 10 digits) exponent) =
      (scaled? digits (exponent + 1 - (Nat.toDigits 10 digits).length)).map
        (·.withSign negative) := by
  have hvalue :
      ofDigitChars 10 (scientific negative (Nat.toDigits 10 digits) exponent).allDigits 0 =
        digits := by
    rw [allDigits, fraction_scientific]
    exact (congrArg (ofDigitChars 10 · 0) (List.take_append_drop 1 _)).trans
      Nat.ofDigitChars_ten_toDigits
  have hlength := List.length_pos_of_ne_nil (Nat.toDigits_ne_nil (b := 10) (n := digits))
  have hsignificand := significand_eq (hvalue.trans_lt hlt)
  rw [hvalue, fraction_scientific, List.length_drop] at hsignificand
  rw [double?, hsignificand]
  simp only [scientific, natural_toDigits]
  rw [if_neg (not_le.2 hbig)]
  congr 2
  by_cases hneg : exponent < 0
  · rw [if_pos (decide_eq_true hneg)]
    omega
  · rw [if_neg (by simpa using hneg)]
    omega

theorem fractionChars_scientific (negative : Bool) (ds : List Char) (exponent : Int) :
    (scientific negative ds exponent).fractionChars =
      if ds.length = 1 then [] else '.' :: ds.drop 1 := by
  rw [fractionChars, scientific]
  by_cases hone : ds.length = 1
  · rw [if_pos hone, if_pos hone, Option.elim_none]
  · rw [if_neg hone, if_neg hone, Option.elim_some]

theorem exponentChars_scientific (negative : Bool) (ds : List Char) (exponent : Int) :
    (scientific negative ds exponent).exponentChars =
      'e' :: (if exponent < 0 then '-' else '+') :: Nat.toDigits 10 exponent.natAbs := by
  show 'e' :: (if decide (exponent < 0) = true then '-' else '+') :: _ = _
  simp only [decide_eq_true_eq]

theorem chars_scientific (hwhole : 16 < ((Nat.toDigits 10 digits).length : Int) + power ∨
    ((Nat.toDigits 10 digits).length : Int) + power ≤ -5) :
    (scientific negative (Nat.toDigits 10 digits)
      ((Nat.toDigits 10 digits).length + power - 1)).chars = scientificChars digits power := by
  rw [scientificChars]
  dsimp only
  rw [if_neg (by omega), if_neg (by omega), chars, fractionChars_scientific,
    exponentChars_scientific]
  show (Nat.toDigits 10 digits).take 1 ++ _ = _
  by_cases hone : (Nat.toDigits 10 digits).length = 1
  · rw [if_pos hone, if_pos hone, List.take_of_length_le hone.le, List.nil_append]
  · rw [if_neg hone, if_neg hone, List.append_assoc]

/-- One digit before the point, and an exponent. -/
theorem denotes_scientific (negative : Bool) (hlt : digits < 2 ^ 64) (hne : digits ≠ 0)
    (hrange : -1000 < power ∧ power < 1000)
    (hwhole : 16 < ((Nat.toDigits 10 digits).length : Int) + power ∨
      ((Nat.toDigits 10 digits).length : Int) + power ≤ -5) :
    Denotes (scientific negative (Nat.toDigits 10 digits)
      ((Nat.toDigits 10 digits).length + power - 1)) digits power := by
  have hlength : (Nat.toDigits 10 digits).length ≤ 20 :=
    (Nat.length_toDigits_le_iff (by decide) (by decide)).2 (hlt.trans (by decide))
  refine ⟨⟨whole_take hne Nat.one_ne_zero, ?_, ?_⟩, chars_scientific hwhole, ?_, digits, power, ?_,
    rfl, hlt, .inr ⟨rfl, rfl⟩⟩
  · intro ds hds
    rw [scientific] at hds
    by_cases hone : (Nat.toDigits 10 digits).length = 1
    · rw [if_pos hone] at hds
      cases hds
    · rw [if_neg hone] at hds
      obtain rfl := Option.some.inj hds
      have hpos := List.length_pos_of_ne_nil (Nat.toDigits_ne_nil (b := 10) (n := digits))
      exact digits_drop (by omega)
  · intro e he
    obtain rfl := Option.some.inj he
    exact digits_toDigits _
  · exact Bool.and_false _
  · have hbig : 2000 < twoTo 31 := by decide
    rw [double?_scientific hlt (by omega)]
    congr 2
    omega

theorem exists_denotes (negative : Bool) (hlt : digits < 2 ^ 64) (hzero : digits = 0 → power = 0)
    (hrange : -1000 < power ∧ power < 1000) :
    ∃ l : Literal, l.negative = negative ∧ Denotes l digits power := by
  by_cases hpower : 0 ≤ power
  · by_cases hwhole : ((Nat.toDigits 10 digits).length : Int) + power ≤ 16
    · exact ⟨_, rfl, denotes_plain negative hzero hpower hwhole⟩
    · have hne : digits ≠ 0 := by
        rintro rfl
        rw [hzero rfl] at hwhole
        exact hwhole (by decide)
      exact ⟨_, rfl, denotes_scientific negative hlt hne hrange (.inl (by omega))⟩
  · have hne : digits ≠ 0 := fun h => hpower (hzero h).ge
    rcases Int.lt_or_le 16 (((Nat.toDigits 10 digits).length : Int) + power) with hlarge | hlarge
    · exact ⟨_, rfl, denotes_scientific negative hlt hne hrange (.inl hlarge)⟩
    rcases Int.lt_or_le (-5) (((Nat.toDigits 10 digits).length : Int) + power) with hsmall | hsmall
    · rcases Int.lt_or_le 0 (((Nat.toDigits 10 digits).length : Int) + power) with hpos | hpos
      · obtain ⟨whole, hwhole⟩ := Int.eq_ofNat_of_zero_le hpos.le
        exact ⟨_, rfl, denotes_placed negative hlt hne (by omega) (by omega) hwhole (by omega)⟩
      · obtain ⟨missing, hmissing⟩ := Int.exists_eq_neg_ofNat hpos
        exact ⟨_, rfl, denotes_small negative hlt hmissing (by omega)⟩
    · exact ⟨_, rfl, denotes_scientific negative hlt hne hrange (.inr hsmall)⟩

end Casework.Json.Literal
