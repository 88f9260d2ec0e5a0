import Mathlib.Algebra.Order.Field.Basic
import Mathlib.Algebra.Order.Group.Abs
import Mathlib.Data.Rat.Cast.Order
import Mathlib.Tactic.FieldSimp
import Mathlib.Tactic.Linarith
import Mathlib.Tactic.Ring
import Casework.Proofs.Decimal.Text
import Casework.Proofs.Decision.Ordering

/-!
# What a numeral is read as

A numeral without a sign is read as the decimal with all its digits, if there is room for them. If
not, the digits of the fraction for which there is no room are rounded off, so that the decimal is
at most half a unit of its last place away. A numeral that is not read at all is larger than every
decimal.
-/

namespace Casework

open Nat (ofDigitChars)

/-- Digits, of which some may stand behind a point. -/
structure Numeral where
  whole : List Char
  fraction : List Char
  digits : ∀ c ∈ whole ++ fraction, c.isDigit
  nonempty : whole ++ fraction ≠ []

namespace Numeral

/-- The point is written only if there is a digit behind it. -/
def chars (n : Numeral) : List Char :=
  if n.fraction = [] then n.whole else n.whole ++ '.' :: n.fraction

def mantissa (n : Numeral) : Nat := ofDigitChars 10 (n.whole ++ n.fraction) 0

def places (n : Numeral) : Nat := n.fraction.length

def value (n : Numeral) : ℚ := n.mantissa / tenTo n.places

theorem exists_cons (n : Numeral) : ∃ c cs, n.chars = c :: cs ∧ (c.isDigit ∨ c = '.') := by
  rw [chars]
  cases hwhole : n.whole with
  | nil =>
    have hfraction : n.fraction ≠ [] := fun h => n.nonempty (by rw [hwhole, h, List.append_nil])
    rw [if_neg hfraction]
    exact ⟨'.', n.fraction, rfl, .inr rfl⟩
  | cons c cs =>
    have hc : c.isDigit := n.digits c (by rw [hwhole]; exact List.mem_cons_self)
    split
    · exact ⟨c, _, rfl, .inl hc⟩
    · exact ⟨c, _, rfl, .inl hc⟩

/-- The decimal is the numeral: digit by digit if there is room for the digits, by value if any
decimal has that value, and otherwise to half a unit of its last place. -/
structure Gives (n : Numeral) (d : Decimal) : Prop where
  unsigned : d.negative = false
  near : |d.value - n.value| ≤ 1 / (2 * tenTo d.scale)
  full : n.mantissa < twoTo 96 → n.places ≤ 28 → d.mantissa = n.mantissa ∧ d.scale = n.places
  exact : (∃ e : Decimal, e.value = n.value) → d.value = n.value

end Numeral

namespace Decimal

variable {cs ds rest : List Char} {c : Char} {m n v p s t : Nat}

/-! ### The size of digits -/

theorem tenTo_pos (n : Nat) : 0 < tenTo n := Nat.pow_pos (by decide)

theorem tenTo_add (m n : Nat) : tenTo (m + n) = tenTo m * tenTo n := Nat.pow_add 10 m n

theorem tenTo_succ (n : Nat) : tenTo (n + 1) = 10 * tenTo n := by
  rw [tenTo_add, Nat.mul_comm]

theorem digit_le_nine (h : c.isDigit) : c.toNat - '0'.toNat ≤ 9 := by
  have hrange := Text.toNat_of_isDigit h
  have hzero : '0'.toNat = 48 := rfl
  omega

/-- More digits behind a number add less than one to it. -/
theorem ofDigitChars_bounds (h : ∀ c ∈ ds, c.isDigit) (n : Nat) :
    n * tenTo ds.length ≤ ofDigitChars 10 ds n ∧
      ofDigitChars 10 ds n < (n + 1) * tenTo ds.length := by
  induction ds generalizing n with
  | nil => simp [tenTo]
  | cons c ds ih =>
    obtain ⟨hc, hds⟩ := List.forall_mem_cons.1 h
    have hdigit := digit_le_nine hc
    obtain ⟨hlow, hhigh⟩ := ih hds (10 * n + (c.toNat - '0'.toNat))
    rw [Nat.ofDigitChars_cons, List.length_cons, tenTo_succ]
    constructor
    · nlinarith
    · nlinarith

/-- The quotient of whole numbers is at most half a step of the coarser grid away. -/
theorem abs_sub_le_half (hs : 0 < s) (ht : 0 < t) (hlow : 2 * m * t ≤ 2 * v * s + t)
    (hhigh : 2 * v * s ≤ 2 * m * t + t) :
    |(m : ℚ) / s - v / t| ≤ 1 / (2 * s) := by
  have hs' : (0 : ℚ) < s := Nat.cast_pos.2 hs
  have ht' : (0 : ℚ) < t := Nat.cast_pos.2 ht
  have hlow' : (2 * m * t : ℚ) ≤ 2 * v * s + t := by exact_mod_cast hlow
  have hhigh' : (2 * v * s : ℚ) ≤ 2 * m * t + t := by exact_mod_cast hhigh
  rw [div_sub_div _ _ hs'.ne' ht'.ne', abs_div, abs_of_pos (mul_pos hs' ht'),
    div_le_div_iff₀ (mul_pos hs' ht') (mul_pos two_pos hs'), one_mul]
  have habs : |(m : ℚ) * t - s * v| * 2 ≤ t := by
    rw [← abs_two (α := ℚ), ← abs_mul, abs_le]
    constructor <;> linarith
  nlinarith

/-! ### Fractions -/

/-- The decimal is `v` with `places` digits behind the point, as far as there is room. -/
structure Near (v places : Nat) (d : Decimal) : Prop where
  unsigned : d.negative = false
  low : 2 * d.mantissa * tenTo places ≤ 2 * v * tenTo d.scale + tenTo places
  high : 2 * v * tenTo d.scale ≤ 2 * d.mantissa * tenTo places + tenTo places
  full : v < twoTo 96 → places ≤ 28 → d.mantissa = v ∧ d.scale = places
  exact : ∀ e : Decimal, e.mantissa * tenTo places = v * tenTo e.scale →
    d.mantissa * tenTo places = v * tenTo d.scale

/-- What comes of digits with the value `v`, of which `places` are behind the point: a decimal that
is near, or none because the value is too large. -/
def Comes (v places : Nat) : Option Decimal → Prop
  | some d => Near v places d
  | none => 2 * twoTo 96 * tenTo places ≤ 2 * v + tenTo places

theorem ofParts?_eq_some (hm : m < twoTo 96) (hs : s ≤ 28) :
    ofParts? false m s = some ⟨false, m, s, hm, hs⟩ := by
  rw [ofParts?, dif_pos ⟨hm, hs⟩]
  rfl

namespace Reading

variable {r : Reading} {d k : Nat}

/-- If some decimal has the value of digits for which there is no room, they are zeros. -/
theorem eq_of_decimal (hroom : r.scale = 28 ∨ twoTo 96 ≤ 10 * r.mantissa + d) (hp : 0 < p)
    (hlow : (10 * r.mantissa + d) * p ≤ v) (hhigh : v < (10 * r.mantissa + d + 1) * p)
    (hd : d ≤ 9) (hk : tenTo k = tenTo r.scale * (10 * p)) {e : Decimal}
    (he : e.mantissa * tenTo k = v * tenTo e.scale) : v = r.mantissa * (10 * p) := by
  by_cases hscale : e.scale ≤ r.scale
  · obtain ⟨j, hj⟩ := Nat.exists_eq_add_of_le hscale
    have hv : v = e.mantissa * tenTo j * (10 * p) := by
      rw [hk, hj, tenTo_add] at he
      refine Nat.eq_of_mul_eq_mul_right (tenTo_pos e.scale) ?_
      rw [← he]
      ring
    have hq : e.mantissa * tenTo j = r.mantissa := by
      generalize e.mantissa * tenTo j = q at hv
      have hle : r.mantissa < q + 1 := by nlinarith
      have hge : q < r.mantissa + 1 := by nlinarith
      omega
    rw [hv, hq]
  · -- The value would be beyond every decimal with that many places.
    obtain ⟨j, hj⟩ := Nat.exists_eq_add_of_lt (Nat.lt_of_not_le hscale)
    have hfull : twoTo 96 ≤ 10 * r.mantissa + d := by
      have := e.scale_le
      exact hroom.resolve_left (by omega)
    have hv : e.mantissa * p = v * tenTo j := by
      rw [hk, hj, Nat.add_right_comm, tenTo_add, tenTo_succ] at he
      refine Nat.eq_of_mul_eq_mul_right (Nat.mul_pos (by decide : 0 < 10) (tenTo_pos r.scale)) ?_
      nlinarith
    have hless := Nat.mul_lt_mul_of_pos_right e.mantissa_lt hp
    have hmore := Nat.le_mul_of_pos_right v (tenTo_pos j)
    have hpower := Nat.mul_le_mul_right p hfull
    omega

/-- The first digit without room rounds to the nearest, whatever stands behind it. -/
theorem rounded?_comes (hm : r.mantissa < twoTo 96) (hs : r.scale ≤ 28)
    (hroom : r.scale = 28 ∨ twoTo 96 ≤ 10 * r.mantissa + d) (hp : 0 < p)
    (hlow : (10 * r.mantissa + d) * p ≤ v) (hhigh : v < (10 * r.mantissa + d + 1) * p)
    (hd : d ≤ 9) (hk : tenTo k = tenTo r.scale * (10 * p)) (hfull : ¬ (v < twoTo 96 ∧ k ≤ 28)) :
    Comes v k (r.rounded? false d) := by
  have hpos := tenTo_pos r.scale
  have hnever {x y : Prop} (hv : v < twoTo 96) (hplaces : k ≤ 28) : x ∧ y :=
    absurd ⟨hv, hplaces⟩ hfull
  have hzeros {e : Decimal} (he : e.mantissa * tenTo k = v * tenTo e.scale) :
      v = r.mantissa * (10 * p) := eq_of_decimal hroom hp hlow hhigh hd hk he
  rw [rounded?]
  by_cases hsmall : d < 5
  · rw [if_pos hsmall, ofParts?_eq_some hm hs]
    refine ⟨rfl, ?_, ?_, hnever, fun e he => ?_⟩
    · rw [hk]
      nlinarith
    · rw [hk]
      nlinarith
    · rw [hk, hzeros he]
      ring
  · -- A digit that rounds up is not a zero.
    have hinexact {x : Prop} (e : Decimal) (he : e.mantissa * tenTo k = v * tenTo e.scale) : x := by
      have hv := hzeros he
      exact absurd hlow (by nlinarith)
    rw [if_neg hsmall]
    by_cases hnext : r.mantissa + 1 < twoTo 96
    · rw [if_pos hnext, ofParts?_eq_some hnext hs]
      refine ⟨rfl, ?_, ?_, hnever, hinexact⟩
      · rw [hk]
        nlinarith
      · rw [hk]
        nlinarith
    · -- The carry fills the mantissa: its last digit is a five, and goes.
      have hlast : r.mantissa + 1 = twoTo 96 := by omega
      have hmax : twoTo 96 = 79228162514264337593543950336 := by decide
      rw [if_neg hnext]
      by_cases hzero : r.scale = 0
      · rw [if_pos hzero, Comes, hk, hzero, ← hlast]
        have hone : tenTo 0 = 1 := rfl
        rw [hone]
        nlinarith
      · obtain ⟨s, hscale⟩ := Nat.exists_eq_succ_of_ne_zero hzero
        have hten : 10 * ((r.mantissa + 5) / 10) = r.mantissa + 5 := by omega
        have hless : (r.mantissa + 5) / 10 < twoTo 96 := by omega
        have hspos := tenTo_pos s
        rw [if_neg hzero, hscale, Nat.succ_sub_one, ofParts?_eq_some hless (by omega)]
        rw [hscale, Nat.succ_eq_add_one, tenTo_succ] at hk
        generalize (r.mantissa + 5) / 10 = q at *
        refine ⟨rfl, ?_, ?_, hnever, hinexact⟩
        · simp only [hk]
          nlinarith
        · simp only [hk]
          nlinarith

theorem finishRounded?_comes (hm : r.mantissa < twoTo 96) (hs : r.scale ≤ 28)
    (hdigits : ∀ d ∈ c :: ds, d.isDigit)
    (hroom : r.scale = 28 ∨ twoTo 96 ≤ ofDigitChars 10 [c] r.mantissa) :
    Comes (ofDigitChars 10 (c :: ds) r.mantissa) (r.scale + (c :: ds).length)
      (r.finishRounded? false (c :: ds)) := by
  obtain ⟨hc, hds⟩ := List.forall_mem_cons.1 hdigits
  obtain ⟨hlow, hhigh⟩ := ofDigitChars_bounds hds (10 * r.mantissa + (c.toNat - '0'.toNat))
  have hall : (c :: ds).all (fun d => d.isDigit || d = '_') := by
    rw [List.all_eq_true]
    intro d hd
    rw [hdigits d hd, Bool.true_or]
  have hfind : (((c :: ds).find? Char.isDigit).bind digitValue?).getD 0 = c.toNat - '0'.toNat := by
    rw [List.find?_cons_of_pos hc, Option.bind_some, digitValue?_of_isDigit hc, Option.getD_some]
    rfl
  have hplaces : tenTo (r.scale + (c :: ds).length) =
      tenTo r.scale * (10 * tenTo ds.length) := by
    rw [tenTo_add, List.length_cons, tenTo_succ]
  have hfull : ¬ (ofDigitChars 10 (c :: ds) r.mantissa < twoTo 96 ∧
      r.scale + (c :: ds).length ≤ 28) := by
    rintro ⟨hvalue, hlength⟩
    rw [← List.singleton_append, Nat.ofDigitChars_append] at hvalue
    rw [List.length_cons] at hlength
    have hgrows := le_ofDigitChars ds (ofDigitChars 10 [c] r.mantissa)
    omega
  rw [finishRounded?, if_pos hall, hfind]
  rw [Nat.ofDigitChars_cons, Nat.ofDigitChars_nil] at hroom
  exact rounded?_comes hm hs hroom (tenTo_pos _) hlow hhigh (digit_le_nine hc) hplaces hfull

/-- By induction on the digits: as long as there is room they are read one by one. -/
theorem read?_fraction_comes (hpoint : r.point) (hdigit : r.digit ∨ ds ≠ [])
    (hm : r.mantissa < twoTo 96) (hs : r.scale ≤ 28) (hdigits : ∀ d ∈ ds, d.isDigit) :
    Comes (ofDigitChars 10 ds r.mantissa) (r.scale + ds.length) (r.read? false ds) := by
  induction ds generalizing r with
  | nil =>
    have hsome : r.digit = true := hdigit.resolve_right (fun h => h rfl)
    rw [read?, finish?, if_pos hsome, ofParts?_eq_some hm hs]
    exact ⟨rfl, Nat.le_add_right _ _, Nat.le_add_right _ _, fun _ _ => ⟨rfl, rfl⟩, fun _ _ => rfl⟩
  | cons c ds ih =>
    obtain ⟨hc, hds⟩ := List.forall_mem_cons.1 hdigits
    have hvalue : ofDigitChars 10 [c] r.mantissa = r.mantissa * 10 + (c.toNat - 48) := by
      rw [Nat.ofDigitChars_cons, Nat.ofDigitChars_nil, Nat.mul_comm]
      rfl
    by_cases hplace : 28 ≤ r.scale
    · have hread : r.read? false (c :: ds) = r.finishRounded? false (c :: ds) := by
        rw [read?]
        simp only [hpoint, hplace, decide_true, Bool.and_self, if_true]
      rw [hread]
      exact finishRounded?_comes hm hs hdigits (.inl (Nat.le_antisymm hs hplace))
    · by_cases hfits : ofDigitChars 10 [c] r.mantissa < twoTo 96
      · have hroom : r.Room [c] := by
          refine ⟨hfits, fun _ => ?_, fun h => ?_⟩
          · rw [List.length_singleton]
            omega
          · rw [hpoint] at h
            cases h
        have hscale : (r.plus [c]).scale = r.scale + 1 := by simp [plus, hpoint]
        rw [read?_digit hroom hc]
        have hbehind := ih (r := r.plus [c]) hpoint (.inl (by simp [plus])) hfits
          (by rw [hscale]; omega) hds
        rw [hscale, Nat.add_assoc, Nat.add_comm 1] at hbehind
        rw [← List.singleton_append, Nat.ofDigitChars_append]
        exact hbehind
      · have hread : r.read? false (c :: ds) = r.finishRounded? false (c :: ds) := by
          rw [read?]
          simp only [hplace, decide_false, Bool.and_false, Bool.false_eq_true, if_false,
            digitValue?_of_isDigit hc, ← hvalue, hfits, hpoint, if_true]
        rw [hread]
        exact finishRounded?_comes hm hs hdigits (.inr (Nat.le_of_not_lt hfits))

/-- A whole part without room is refused, whatever stands behind it. -/
theorem read?_whole_full (hpoint : r.point = false) (hscale : r.scale = 0)
    (hdigits : ∀ d ∈ ds, d.isDigit) (hm : r.mantissa < twoTo 96)
    (hfull : ¬ ofDigitChars 10 ds r.mantissa < twoTo 96) :
    r.read? false (ds ++ rest) = none := by
  induction ds generalizing r with
  | nil => exact absurd hm hfull
  | cons c ds ih =>
    obtain ⟨hc, hds⟩ := List.forall_mem_cons.1 hdigits
    have hvalue : ofDigitChars 10 [c] r.mantissa = r.mantissa * 10 + (c.toNat - 48) := by
      rw [Nat.ofDigitChars_cons, Nat.ofDigitChars_nil, Nat.mul_comm]
      rfl
    by_cases hfits : ofDigitChars 10 [c] r.mantissa < twoTo 96
    · have hroom : r.Room [c] := ⟨hfits, by simp [hpoint], fun _ => hscale⟩
      rw [List.cons_append, read?_digit hroom hc]
      refine ih (r := r.plus [c]) hpoint (by simp [plus, hpoint, hscale]) hds hfits ?_
      rwa [← List.singleton_append, Nat.ofDigitChars_append] at hfull
    · rw [List.cons_append, read?]
      simp only [hpoint, Bool.false_and, Bool.false_eq_true, if_false, digitValue?_of_isDigit hc,
        ← hvalue, hfits]

end Reading

/-! ### Numerals -/

/-- No numeral has a sign. -/
theorem ofChars?_chars (n : Numeral) : ofChars? n.chars = Reading.start.read? false n.chars := by
  obtain ⟨c, cs, hchars, hc⟩ := n.exists_cons
  rw [hchars]
  rcases hc with hc | rfl
  · exact ofChars?_of_isDigit hc
  · rfl

theorem ofChars?_comes (n : Numeral) : Comes n.mantissa n.places (ofChars? n.chars) := by
  have hwhole : ∀ c ∈ n.whole, c.isDigit := fun c hc => n.digits c (List.mem_append_left _ hc)
  have hfraction : ∀ c ∈ n.fraction, c.isDigit :=
    fun c hc => n.digits c (List.mem_append_right _ hc)
  obtain ⟨rest, hchars, hrest⟩ : ∃ rest, n.chars = n.whole ++ rest ∧
      rest = if n.fraction = [] then [] else '.' :: n.fraction := by
    rw [Numeral.chars]
    split
    · exact ⟨[], (List.append_nil _).symm, rfl⟩
    · exact ⟨_, rfl, rfl⟩
  rw [ofChars?_chars, hchars, Numeral.mantissa, Nat.ofDigitChars_append]
  by_cases hfits : ofDigitChars 10 n.whole 0 < twoTo 96
  · have hroom : Reading.start.Room n.whole := ⟨hfits, nofun, fun _ => rfl⟩
    have hdigit : (Reading.start.plus n.whole).digit ∨ n.fraction ≠ [] := by
      by_cases hnone : n.fraction = []
      · have hsome : n.whole ≠ [] := fun h => n.nonempty (by rw [h, hnone, List.append_nil])
        simp [Reading.plus, Reading.start, hsome]
      · exact .inr hnone
    have hread : (Reading.start.plus n.whole).read? false rest =
        Reading.read? false { Reading.start.plus n.whole with point := true } n.fraction := by
      rw [hrest]
      split
      · rename_i hnone
        rw [hnone]
        rfl
      · rw [Reading.read?]
        rfl
    rw [Reading.read?_digits hroom hwhole, hread]
    let r : Reading := { Reading.start.plus n.whole with point := true }
    have hcomes := Reading.read?_fraction_comes (r := r) rfl hdigit hfits (Nat.zero_le _) hfraction
    simpa [r, Reading.plus, Reading.start, Numeral.places] using hcomes
  · rw [Reading.read?_whole_full rfl rfl hwhole (by decide) hfits, Comes]
    have hlow := (ofDigitChars_bounds hfraction (ofDigitChars 10 n.whole 0)).1
    rw [Numeral.places]
    nlinarith [tenTo_pos n.fraction.length]

theorem value_of_unsigned {d : Decimal} (h : d.negative = false) :
    d.value = d.mantissa / tenTo d.scale := by
  rw [value, signed, h]
  simp

/-- Only a zero has the value of a numeral and a sign. -/
theorem mantissa_of_value_eq {e : Decimal} {n : Numeral} (h : e.value = n.value) :
    e.mantissa * tenTo n.places = n.mantissa * tenTo e.scale := by
  have he : ((tenTo e.scale : ℕ) : ℚ) ≠ 0 := Nat.cast_ne_zero.2 (tenTo_pos e.scale).ne'
  have hn : ((tenTo n.places : ℕ) : ℚ) ≠ 0 := Nat.cast_ne_zero.2 (tenTo_pos n.places).ne'
  rw [value, Numeral.value, div_eq_div_iff he hn] at h
  have hsigned : e.signed * tenTo n.places = n.mantissa * tenTo e.scale := by exact_mod_cast h
  cases hnegative : e.negative with
  | false =>
    rw [signed, hnegative, if_neg Bool.false_ne_true] at hsigned
    exact_mod_cast hsigned
  | true =>
    rw [signed, hnegative, if_pos rfl] at hsigned
    have hpos : 0 ≤ (e.mantissa * tenTo n.places : ℤ) := by positivity
    have hpos' : 0 ≤ (n.mantissa * tenTo e.scale : ℤ) := by positivity
    have heq : (e.mantissa * tenTo n.places : ℤ) = n.mantissa * tenTo e.scale := by linarith
    exact_mod_cast heq

theorem Near.gives {n : Numeral} {d : Decimal} (h : Near n.mantissa n.places d) : n.Gives d where
  unsigned := h.unsigned
  near := by
    rw [value_of_unsigned h.unsigned, Numeral.value]
    exact abs_sub_le_half (tenTo_pos d.scale) (tenTo_pos n.places) h.low h.high
  full := h.full
  exact := by
    rintro ⟨e, he⟩
    have hexact := h.exact e (mantissa_of_value_eq he)
    have hd : ((tenTo d.scale : ℕ) : ℚ) ≠ 0 := Nat.cast_ne_zero.2 (tenTo_pos d.scale).ne'
    have hn : ((tenTo n.places : ℕ) : ℚ) ≠ 0 := Nat.cast_ne_zero.2 (tenTo_pos n.places).ne'
    rw [value_of_unsigned h.unsigned, Numeral.value, div_eq_div_iff hd hn]
    exact_mod_cast hexact

theorem gives_of_ofChars? {n : Numeral} {d : Decimal} (h : ofChars? n.chars = some d) :
    n.Gives d := by
  have hcomes := ofChars?_comes n
  rw [h] at hcomes
  exact Near.gives hcomes

theorem value_lt_of_ofChars? {n : Numeral} (h : ofChars? n.chars = none) (d : Decimal) :
    d.value < n.value := by
  have hcomes := ofChars?_comes n
  rw [h, Comes] at hcomes
  have hbeyond : (2 * twoTo 96 * tenTo n.places : ℚ) ≤ 2 * n.mantissa + tenTo n.places := by
    exact_mod_cast hcomes
  have hn : (0 : ℚ) < tenTo n.places := Nat.cast_pos.2 (tenTo_pos n.places)
  have hd : (1 : ℚ) ≤ tenTo d.scale := Nat.one_le_cast.2 (tenTo_pos d.scale)
  have hmantissa : (d.mantissa + 1 : ℚ) ≤ twoTo 96 := by exact_mod_cast d.mantissa_lt
  have hsigned : (d.signed : ℚ) ≤ d.mantissa := by
    have hle : d.signed ≤ d.mantissa := by
      rw [signed]
      split <;> omega
    exact_mod_cast hle
  calc d.value ≤ d.mantissa := by
        rw [value, div_le_iff₀ (by linarith)]
        nlinarith [(Nat.cast_nonneg d.mantissa : (0 : ℚ) ≤ d.mantissa)]
    _ < n.value := by
        rw [Numeral.value, lt_div_iff₀ hn]
        nlinarith

end Decimal

end Casework
