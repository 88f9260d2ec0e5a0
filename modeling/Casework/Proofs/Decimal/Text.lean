import Casework.Decimal.Text
import Casework.Text.Blank

/-!
# Decimals are read back

What is written of a decimal are all its digits, so that they are all read again: the number so far
never grows beyond the mantissa, and there are never more fraction digits than there is room for. Only
the sign of a zero is lost.
-/

namespace Casework

/-! ### No blanks among the characters of a number -/

namespace Text

theorem toNat_of_isDigit {c : Char} (h : c.isDigit) : 48 ≤ c.toNat ∧ c.toNat ≤ 57 := by
  simpa [Char.isDigit, UInt32.le_iff_toNat_le] using h

theorem isBlank_of_isDigit {c : Char} (h : c.isDigit) : isBlank c = false := by
  have hrange := toNat_of_isDigit h
  simp [isBlank]
  omega

theorem trimStart_of_forall {cs : List Char} (h : ∀ c ∈ cs, isBlank c = false) :
    trimStart cs = cs := by
  cases cs with
  | nil => rfl
  | cons c cs => rw [trimStart, List.dropWhile_cons_of_neg (by simp [h c List.mem_cons_self])]

theorem trim_of_forall {cs : List Char} (h : ∀ c ∈ cs, isBlank c = false) : trim cs = cs := by
  have hreverse : ∀ c ∈ cs.reverse, isBlank c = false := fun c hc => h c (List.mem_reverse.1 hc)
  have hstart : cs.reverse.dropWhile isBlank = cs.reverse := trimStart_of_forall hreverse
  rw [trim, trimStart_of_forall h, trimEnd, hstart, List.reverse_reverse]

end Text

namespace Decimal

open Nat (ofDigitChars)

variable {cs ds : List Char} {c : Char} {n : Nat}

/-! ### Reading digits -/

theorem digitValue?_of_isDigit (h : c.isDigit) : digitValue? c = some (c.toNat - 48) := if_pos h

theorem le_ofDigitChars (ds : List Char) (n : Nat) : n ≤ ofDigitChars 10 ds n := by
  induction ds generalizing n with
  | nil => simp
  | cons c ds ih =>
    rw [Nat.ofDigitChars_cons]
    have := ih (10 * n + (c.toNat - '0'.toNat))
    omega

namespace Reading

/-- What has been read behind some more digits. -/
def plus (r : Reading) (ds : List Char) : Reading where
  mantissa := ofDigitChars 10 ds r.mantissa
  scale := if r.point then r.scale + ds.length else r.scale
  point := r.point
  digit := r.digit || !ds.isEmpty

theorem plus_nil (r : Reading) : r.plus [] = r := by
  simp [plus]

theorem plus_plus (r : Reading) (ds es : List Char) : (r.plus ds).plus es = r.plus (ds ++ es) := by
  have hdigit : (r.digit || !ds.isEmpty || !es.isEmpty) = (r.digit || !(ds ++ es).isEmpty) := by
    cases ds <;> simp
  simp only [plus, Nat.ofDigitChars_append, hdigit, List.length_append, ← Nat.add_assoc]
  split <;> rfl

/-- There is room for the digits behind what has been read. -/
structure Room (r : Reading) (ds : List Char) : Prop where
  mantissa : ofDigitChars 10 ds r.mantissa < twoTo 96
  point : r.point → r.scale + ds.length ≤ 28
  whole : r.point = false → r.scale = 0

theorem Room.first {r : Reading} (h : r.Room (c :: ds)) : r.Room [c] where
  mantissa := by
    have hvalue := h.mantissa
    rw [← List.singleton_append, Nat.ofDigitChars_append] at hvalue
    exact Nat.lt_of_le_of_lt (le_ofDigitChars ds _) hvalue
  point hp := Nat.le_trans (by simp) (h.point hp)
  whole := h.whole

theorem Room.behind {r : Reading} {es : List Char} (h : r.Room (ds ++ es)) :
    (r.plus ds).Room es where
  mantissa := by
    have hvalue := h.mantissa
    rwa [Nat.ofDigitChars_append] at hvalue
  point hp := by
    have hpoint : r.point = true := hp
    have := h.point hpoint
    simp only [plus, hpoint, if_true, List.length_append] at *
    omega
  whole hp := by
    have hpoint : r.point = false := hp
    simp [plus, hpoint, h.whole hpoint]

theorem read?_digit {r : Reading} (h : r.Room [c]) (hc : c.isDigit) (negative : Bool) :
    r.read? negative (c :: cs) = (r.plus [c]).read? negative cs := by
  have hscale : (r.point && decide (28 ≤ r.scale)) = false := by
    cases hp : r.point with
    | false => rfl
    | true =>
      have := h.point hp
      simp only [List.length_singleton] at this
      simp only [Bool.true_and, decide_eq_false_iff_not]
      omega
  have hvalue : ofDigitChars 10 [c] r.mantissa = r.mantissa * 10 + (c.toNat - 48) := by
    rw [Nat.ofDigitChars_cons, Nat.ofDigitChars_nil, Nat.mul_comm]
    rfl
  have hroom : r.mantissa * 10 + (c.toNat - 48) < twoTo 96 := hvalue ▸ h.mantissa
  rw [read?]
  simp only [hscale, digitValue?_of_isDigit hc, hroom, if_true, Bool.false_eq_true, if_false, plus,
    hvalue]
  cases hp : r.point with
  | false => simp [h.whole hp]
  | true => simp

/-- Digits for which there is room are all read. -/
theorem read?_digits {r : Reading} (h : r.Room ds) (hdigits : ∀ c ∈ ds, c.isDigit)
    (negative : Bool) : r.read? negative (ds ++ cs) = (r.plus ds).read? negative cs := by
  induction ds generalizing r with
  | nil => rw [plus_nil, List.nil_append]
  | cons c ds ih =>
    obtain ⟨hc, hds⟩ := List.forall_mem_cons.1 hdigits
    have hsplit : r.Room ([c] ++ ds) := h
    rw [List.cons_append, read?_digit h.first hc, ih hsplit.behind hds, plus_plus, List.singleton_append]

end Reading

/-! ### Reading what has been written -/

variable (d : Decimal)

theorem digits_length : d.scale + 1 ≤ d.digits.length := by
  simp only [digits, List.length_append, List.length_replicate]
  omega

theorem isDigit_of_mem_digits {d : Decimal} (h : c ∈ d.digits) : c.isDigit := by
  rcases List.mem_append.1 h with h | h
  · rw [List.eq_of_mem_replicate h]
    rfl
  · exact Nat.isDigit_of_mem_toDigits (by decide) (by decide) h

theorem ofDigitChars_digits : ofDigitChars 10 d.digits 0 = d.mantissa := by
  rw [digits, Nat.ofDigitChars_append, Nat.ofDigitChars_replicate_zero, Nat.mul_zero,
    Nat.ofDigitChars_ten_toDigits]

/-- The digits before the point. -/
def whole : List Char := d.digits.take (d.digits.length - d.scale)

/-- The digits behind the point. -/
def fraction : List Char := d.digits.drop (d.digits.length - d.scale)

theorem whole_append_fraction : d.whole ++ d.fraction = d.digits := List.take_append_drop _ _

theorem fraction_length : d.fraction.length = d.scale := by
  have := d.digits_length
  rw [fraction, List.length_drop]
  omega

theorem whole_length : 0 < d.whole.length := by
  have := d.digits_length
  rw [whole, List.length_take]
  omega

/-- The number without its sign. -/
def unsignedChars : List Char := if d.scale = 0 then d.whole else d.whole ++ '.' :: d.fraction

theorem renderChars_eq : d.renderChars = (if d.negative then ['-'] else []) ++ d.unsignedChars := by
  rw [renderChars, unsignedChars]
  split
  · rfl
  · exact List.append_assoc ..

/-- The decimal as it is read back: a zero has no sign. -/
def reread (negative : Bool) : Decimal :=
  ⟨negative && d.mantissa != 0, d.mantissa, d.scale, d.mantissa_lt, d.scale_le⟩

theorem read?_end (point negative : Bool) :
    Reading.read? negative ⟨d.mantissa, d.scale, point, true⟩ [] = some (d.reread negative) :=
  dif_pos ⟨d.mantissa_lt, d.scale_le⟩

theorem room_digits {whole fraction : List Char} (h : whole ++ fraction = d.digits) :
    Reading.start.Room whole where
  mantissa := by
    have hle := le_ofDigitChars fraction (ofDigitChars 10 whole 0)
    rw [← Nat.ofDigitChars_append, h, ofDigitChars_digits] at hle
    exact Nat.lt_of_le_of_lt hle d.mantissa_lt
  point := nofun
  whole _ := rfl

theorem plus_whole : Reading.start.plus d.whole = ⟨ofDigitChars 10 d.whole 0, 0, false, true⟩ := by
  have hdigit : (!d.whole.isEmpty) = true := by
    simpa using List.ne_nil_of_length_pos d.whole_length
  simp [Reading.plus, Reading.start, hdigit]

theorem read?_unsignedChars (negative : Bool) :
    Reading.start.read? negative d.unsignedChars = some (d.reread negative) := by
  have hwhole : ∀ c ∈ d.whole, c.isDigit := fun c hc => isDigit_of_mem_digits (List.mem_of_mem_take hc)
  have hfraction : ∀ c ∈ d.fraction, c.isDigit :=
    fun c hc => isDigit_of_mem_digits (List.mem_of_mem_drop hc)
  have hmantissa : ofDigitChars 10 d.fraction (ofDigitChars 10 d.whole 0) = d.mantissa := by
    rw [← Nat.ofDigitChars_append, whole_append_fraction, ofDigitChars_digits]
  have hread (cs : List Char) : Reading.start.read? negative (d.whole ++ cs) =
      Reading.read? negative ⟨ofDigitChars 10 d.whole 0, 0, false, true⟩ cs := by
    rw [Reading.read?_digits (d.room_digits d.whole_append_fraction) hwhole, plus_whole]
  rw [unsignedChars]
  split
  · rename_i hscale
    have hnone : d.fraction = [] := List.eq_nil_of_length_eq_zero (d.fraction_length.trans hscale)
    rw [hnone, Nat.ofDigitChars_nil] at hmantissa
    have hend := hread []
    rw [List.append_nil, hmantissa, ← hscale, read?_end] at hend
    exact hend
  · have hpoint : Reading.read? negative ⟨ofDigitChars 10 d.whole 0, 0, false, true⟩
        ('.' :: d.fraction) =
        Reading.read? negative ⟨ofDigitChars 10 d.whole 0, 0, true, true⟩ d.fraction := by
      rw [Reading.read?]
      rfl
    have hroom : Reading.Room ⟨ofDigitChars 10 d.whole 0, 0, true, true⟩ d.fraction := by
      refine ⟨hmantissa ▸ d.mantissa_lt, fun _ => ?_, nofun⟩
      rw [fraction_length, Nat.zero_add]
      exact d.scale_le
    rw [hread, hpoint, ← List.append_nil d.fraction, Reading.read?_digits hroom hfraction,
      Reading.plus, hmantissa]
    simp only [if_true, fraction_length, Nat.zero_add, Bool.true_or]
    exact d.read?_end true negative

theorem ofChars?_of_isDigit (hc : c.isDigit) :
    ofChars? (c :: cs) = Reading.start.read? false (c :: cs) := by
  rw [ofChars?.eq_def]
  split
  · rename_i h
    obtain rfl := (List.cons.inj h).1
    cases hc
  · rename_i h
    obtain rfl := (List.cons.inj h).1
    cases hc
  · rfl

theorem exists_unsignedChars : ∃ c cs, d.unsignedChars = c :: cs ∧ c.isDigit := by
  obtain ⟨c, cs, hwhole⟩ := List.exists_cons_of_length_pos d.whole_length
  have hc : c.isDigit := isDigit_of_mem_digits (List.mem_of_mem_take (hwhole ▸ List.mem_cons_self))
  rw [unsignedChars, hwhole]
  split
  · exact ⟨c, _, rfl, hc⟩
  · exact ⟨c, _, rfl, hc⟩

theorem ofChars?_renderChars : ofChars? d.renderChars = some (d.reread d.negative) := by
  rw [renderChars_eq]
  cases hnegative : d.negative with
  | true => exact d.read?_unsignedChars true
  | false =>
    obtain ⟨c, cs, hchars, hc⟩ := d.exists_unsignedChars
    have hread := d.read?_unsignedChars false
    rw [hchars] at hread ⊢
    exact (ofChars?_of_isDigit hc).trans hread

theorem isBlank_of_mem_renderChars {d : Decimal} (h : c ∈ d.renderChars) :
    Text.isBlank c = false := by
  have hdigits : c ∈ d.digits → Text.isBlank c = false :=
    fun h => Text.isBlank_of_isDigit (isDigit_of_mem_digits h)
  rw [renderChars_eq, List.mem_append] at h
  rcases h with h | h
  · split at h
    · obtain rfl := List.mem_singleton.1 h
      rfl
    · cases h
  · rw [unsignedChars] at h
    split at h
    · exact hdigits (List.mem_of_mem_take h)
    · rcases List.mem_append.1 h with h | h
      · exact hdigits (List.mem_of_mem_take h)
      · rcases List.mem_cons.1 h with rfl | h
        · rfl
        · exact hdigits (List.mem_of_mem_drop h)

/-- A decimal is read back from its text, but for the sign of a zero. -/
theorem ofText?_trimmed_render :
    ofText? (Text.trimmed d.render) = some (d.reread d.negative) := by
  have htrim : Text.trim d.renderChars = d.renderChars :=
    Text.trim_of_forall fun _ hc => isBlank_of_mem_renderChars hc
  rw [ofText?, Text.trimmed, render, String.toList_ofList, String.toList_ofList, htrim,
    ofChars?_renderChars, Option.some_or]

/-! ### The value -/

theorem signed_reread : (d.reread d.negative).signed = d.signed := by
  cases hnegative : d.negative with
  | false => simp [signed, reread, hnegative]
  | true =>
    by_cases hzero : d.mantissa = 0
    · simp [signed, reread, hnegative, hzero]
    · simp [signed, reread, hnegative, hzero]

theorem compareValue_eq {a b : Decimal} :
    compareValue a b = .eq ↔ a.signed * tenTo b.scale = b.signed * tenTo a.scale :=
  Std.compare_eq_iff_eq

theorem signed_dropZeros (n : Nat) (d : Decimal) :
    (dropZeros n d).signed * tenTo d.scale = d.signed * tenTo (dropZeros n d).scale := by
  induction n generalizing d with
  | zero => rfl
  | succ n ih =>
    rw [dropZeros]
    split
    · rename_i h
      obtain ⟨hscale, hzero⟩ := h
      let shorter : Decimal := ⟨d.negative, d.mantissa / 10, d.scale - 1,
        Nat.lt_of_le_of_lt (Nat.div_le_self ..) d.mantissa_lt,
        Nat.le_trans (Nat.sub_le ..) d.scale_le⟩
      have hsigned : d.signed = shorter.signed * 10 := by
        have hmantissa : (d.mantissa : Int) = (d.mantissa / 10 : Nat) * 10 := by omega
        cases hnegative : d.negative with
        | false => simpa [signed, shorter, hnegative] using hmantissa
        | true =>
          simp only [signed, shorter, hnegative, if_true]
          omega
      have hpower : tenTo d.scale = tenTo shorter.scale * 10 := by
        rw [← Nat.sub_add_cancel hscale]
        rfl
      have hshorter := ih shorter
      calc (dropZeros n shorter).signed * (tenTo d.scale : Int)
          = (dropZeros n shorter).signed * tenTo shorter.scale * 10 := by
            rw [hpower, Int.natCast_mul, ← Int.mul_assoc]
            rfl
        _ = shorter.signed * tenTo (dropZeros n shorter).scale * 10 := by rw [hshorter]
        _ = d.signed * tenTo (dropZeros n shorter).scale := by rw [hsigned, Int.mul_right_comm]
    · rfl

theorem compareValue_normalize : compareValue d.normalize d = .eq := by
  rw [compareValue_eq, normalize]
  split
  · rename_i h
    have hzero : d.mantissa = 0 := by simpa [isZero] using h
    simp [signed, zero, hzero]
  · exact signed_dropZeros d.scale d

/-- What is written of a decimal without its zeros at the end is read as the same value. -/
theorem ofText?_normalize_render :
    ∃ r, ofText? (Text.trimmed d.normalize.render) = some r ∧ compareValue r d = .eq := by
  refine ⟨_, ofText?_trimmed_render _, ?_⟩
  rw [compareValue, signed_reread]
  exact d.compareValue_normalize

end Decimal

end Casework
