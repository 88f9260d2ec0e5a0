import Casework.Proofs.Json.Text

/-!
# Numbers written as JSON

A number is written as digits, perhaps with more of them behind a point, and perhaps with an exponent.
All of it is read again as one literal: none of its parts begins with a character that could belong to
the part before, nor does anything that may stand behind a value.
-/

namespace Casework.Json

variable {cs ds rest : List Char}

/-- What may stand behind a value inside another one. -/
def Follows (rest : List Char) : Prop := ∀ c ∈ rest.head?, c = ',' ∨ c = ']' ∨ c = '\x7d'

/-- Nothing that could belong to the digits before. -/
def EndsDigits (rest : List Char) : Prop := ∀ c ∈ rest.head?, c.isDigit = false

theorem Follows.endsDigits (h : Follows rest) : EndsDigits rest := by
  intro c hc
  rcases h c hc with rfl | rfl | rfl <;> rfl

theorem endsDigits_cons {c : Char} (h : c.isDigit = false) (rest : List Char) :
    EndsDigits (c :: rest) := by
  intro d hd
  obtain rfl := Option.some.inj hd
  exact h

theorem takeWhile_isDigit_append (hds : ∀ d ∈ ds, d.isDigit = true) (h : EndsDigits rest) :
    (ds ++ rest).takeWhile Char.isDigit = ds ∧ (ds ++ rest).dropWhile Char.isDigit = rest := by
  rw [List.takeWhile_append_of_pos hds, List.dropWhile_append_of_pos hds]
  cases rest with
  | nil => simp
  | cons c rest =>
    have hc := h c rfl
    simp [hc]

/-! ### Whole parts -/

/-- Digits, the first of them no zero unless it is the only one. -/
def Whole (ds : List Char) : Prop :=
  ds = ['0'] ∨ ∃ c cs, ds = c :: cs ∧ c ≠ '0' ∧ ∀ d ∈ ds, d.isDigit = true

theorem toDigits_head {n : Nat} (hn : 0 < n) : ∀ c ∈ (Nat.toDigits 10 n).head?, c ≠ '0' := by
  induction n using Nat.strongRecOn with
  | ind n ih =>
    by_cases hsmall : n < 10
    · rw [Nat.toDigits_of_lt_base hsmall]
      have hall : ∀ m < 10, 0 < m → Nat.digitChar m ≠ '0' := by decide
      intro c hc
      obtain rfl := Option.some.inj hc
      exact hall n hsmall hn
    · rw [Nat.toDigits_of_base_le (by decide) (by omega)]
      have hhead := ih (n / 10) (by omega) (by omega)
      rwa [List.head?_append, Option.or_of_isSome (by simp)]

theorem isDigit_of_mem_toDigits {n : Nat} {d : Char} (hd : d ∈ Nat.toDigits 10 n) :
    d.isDigit = true :=
  Nat.isDigit_of_mem_toDigits (by decide) (by decide) hd

theorem whole_toDigits (n : Nat) : Whole (Nat.toDigits 10 n) := by
  rcases Nat.eq_zero_or_pos n with rfl | hn
  · exact .inl rfl
  · cases hds : Nat.toDigits 10 n with
    | nil => exact absurd hds Nat.toDigits_ne_nil
    | cons c cs =>
      refine .inr ⟨c, cs, rfl, toDigits_head hn c (by rw [hds]; rfl), fun d hd => ?_⟩
      exact isDigit_of_mem_toDigits (hds ▸ hd)

theorem readWhole_append (hds : Whole ds) (h : EndsDigits rest) :
    Reads (readWhole (ds ++ rest)) ds rest := by
  rcases hds with rfl | ⟨c, cs, rfl, hc, hdigits⟩
  · have hhead : rest.head?.any Char.isDigit = false := by
      cases rest with
      | nil => rfl
      | cons c rest => simpa using h c rfl
    rw [List.singleton_append, readWhole, if_pos rfl, hhead]
    exact ⟨_, rfl⟩
  · obtain ⟨htake, hdrop⟩ :=
      takeWhile_isDigit_append (fun d hd => hdigits d (List.mem_cons_of_mem c hd)) h
    rw [List.cons_append, readWhole, if_neg hc, if_pos (hdigits c List.mem_cons_self)]
    simp only [htake, hdrop]
    exact ⟨_, rfl⟩

/-! ### Fractions and exponents -/

/-- One or more digits. -/
def Digits (ds : List Char) : Prop := ds ≠ [] ∧ ∀ d ∈ ds, d.isDigit = true

theorem digits_toDigits (n : Nat) : Digits (Nat.toDigits 10 n) :=
  ⟨Nat.toDigits_ne_nil, fun _ hd => isDigit_of_mem_toDigits hd⟩

theorem readDigits_append (hds : Digits ds) (h : EndsDigits rest) :
    Reads (readDigits (ds ++ rest)) ds rest := by
  obtain ⟨hne, hdigits⟩ := hds
  cases ds with
  | nil => exact absurd rfl hne
  | cons c cs =>
    obtain ⟨htake, hdrop⟩ :=
      takeWhile_isDigit_append (fun d hd => hdigits d (List.mem_cons_of_mem c hd)) h
    rw [List.cons_append, readDigits, if_pos (hdigits c List.mem_cons_self)]
    simp only [htake, hdrop]
    exact ⟨_, rfl⟩

namespace Literal

/-- The characters of a number without its sign. An exponent always has a sign. -/
def fractionChars (l : Literal) : List Char := l.fraction.elim [] ('.' :: ·)

def exponentChars (l : Literal) : List Char :=
  l.exponent.elim [] fun (negative, ds) => 'e' :: (if negative then '-' else '+') :: ds

def chars (l : Literal) : List Char := l.whole ++ (l.fractionChars ++ l.exponentChars)

/-- There are digits wherever there must be some. -/
structure Formed (l : Literal) : Prop where
  whole : Whole l.whole
  fraction : ∀ ds ∈ l.fraction, Digits ds
  exponent : ∀ e ∈ l.exponent, Digits e.2

end Literal

/-- What is read is there, and nothing of it is left. -/
def ReadsMany {α : Type} {cs : List Char} (x : Option (ReadMany α cs)) (a : α) (rest : List Char) :
    Prop :=
  ∃ h, x = some ⟨a, rest, h⟩

theorem readExponent_append {l : Literal} (hl : l.Formed) (h : Follows rest) :
    ReadsMany (readExponent (l.exponentChars ++ rest)) l.exponent rest := by
  rw [Literal.exponentChars]
  cases hexponent : l.exponent with
  | none =>
    cases rest with
    | nil => exact ⟨_, rfl⟩
    | cons c rest => rcases h c rfl with rfl | rfl | rfl <;> exact ⟨_, rfl⟩
  | some e =>
    obtain ⟨negative, ds⟩ := e
    obtain ⟨hrest, hread⟩ := readDigits_append (hl.exponent _ hexponent) h.endsDigits
    have hdigits :
        ReadsMany (readExponentDigits negative (ds ++ rest)) (some (negative, ds)) rest := by
      rw [readExponentDigits, hread]
      exact ⟨_, rfl⟩
    obtain ⟨hrest, hdigits⟩ := hdigits
    cases negative
    · show ReadsMany (readExponent ('e' :: '+' :: (ds ++ rest))) _ _
      rw [readExponent, if_pos (.inl rfl)]
      simp only [hdigits]
      exact ⟨_, rfl⟩
    · show ReadsMany (readExponent ('e' :: '-' :: (ds ++ rest))) _ _
      rw [readExponent, if_pos (.inl rfl)]
      simp only [hdigits]
      exact ⟨_, rfl⟩

/-- What stands behind the digits before it: the exponent, or what follows. -/
theorem exponentChars_append_cases (l : Literal) (rest : List Char) :
    (∃ us, l.exponentChars ++ rest = 'e' :: us) ∨ l.exponentChars ++ rest = rest := by
  rw [Literal.exponentChars]
  cases l.exponent with
  | none => exact .inr rfl
  | some e => exact .inl ⟨_, rfl⟩

theorem endsDigits_exponentChars (l : Literal) (h : Follows rest) :
    EndsDigits (l.exponentChars ++ rest) := by
  rcases exponentChars_append_cases l rest with ⟨us, hus⟩ | heq
  · rw [hus]
    exact endsDigits_cons rfl us
  · rw [heq]
    exact h.endsDigits

theorem readFraction_append {l : Literal} (hl : l.Formed) (h : Follows rest) :
    ReadsMany (readFraction (l.fractionChars ++ (l.exponentChars ++ rest))) l.fraction
      (l.exponentChars ++ rest) := by
  have hbehind := endsDigits_exponentChars l h
  rw [Literal.fractionChars]
  cases hfraction : l.fraction with
  | none =>
    rcases exponentChars_append_cases l rest with ⟨us, hus⟩ | heq
    · rw [hus]
      exact ⟨_, rfl⟩
    · rw [heq]
      cases rest with
      | nil => exact ⟨_, rfl⟩
      | cons c rest => rcases h c rfl with rfl | rfl | rfl <;> exact ⟨_, rfl⟩
  | some ds =>
    obtain ⟨hrest, hread⟩ := readDigits_append (hl.fraction ds hfraction) hbehind
    show ReadsMany (readFraction ('.' :: (ds ++ (l.exponentChars ++ rest)))) _ _
    rw [readFraction, hread]
    exact ⟨_, rfl⟩

theorem endsDigits_fractionChars (l : Literal) (h : Follows rest) :
    EndsDigits (l.fractionChars ++ (l.exponentChars ++ rest)) := by
  rw [Literal.fractionChars]
  cases l.fraction with
  | none => exact endsDigits_exponentChars l h
  | some ds => exact endsDigits_cons rfl _

/-- A number is read back part by part. -/
theorem readUnsigned_chars {l : Literal} (hl : l.Formed) (h : Follows rest) :
    Reads (readUnsigned l.negative (l.chars ++ rest)) l rest := by
  obtain ⟨hwhole, hreadWhole⟩ := readWhole_append hl.whole (endsDigits_fractionChars l h)
  obtain ⟨hfraction, hreadFraction⟩ := readFraction_append hl h
  obtain ⟨hexponent, hreadExponent⟩ := readExponent_append hl h
  rw [Literal.chars, List.append_assoc, List.append_assoc, readUnsigned, hreadWhole]
  simp only [Option.bind_eq_bind, Option.bind_some, hreadFraction, hreadExponent]
  exact ⟨_, rfl⟩

/-! ### Values that are numbers -/

theorem readValue_of_digit {c : Char} (hc : c.isDigit = true ∨ c = '-') (us : List Char) :
    readValue (c :: us) = readNumber (c :: us) := by
  rw [readValue]
  case x =>
    intro h
    cases h
  all_goals
    rintro rest ⟨⟩
    exact absurd hc (by decide)

theorem readNumber_of_digit {c : Char} (hc : c.isDigit = true) (us : List Char) :
    readNumber (c :: us) = (readUnsigned false (c :: us)).map (·.map Literal.value) := by
  rw [readNumber]
  · cases readUnsigned false (c :: us) <;> rfl
  · rintro rest ⟨⟩
    exact absurd hc (by decide)

theorem Whole.exists_cons (h : Whole ds) : ∃ c cs, ds = c :: cs ∧ c.isDigit = true := by
  rcases h with rfl | ⟨c, cs, rfl, -, hdigits⟩
  · exact ⟨'0', [], rfl, rfl⟩
  · exact ⟨c, cs, rfl, hdigits c List.mem_cons_self⟩

namespace Literal

theorem Formed.chars_cons {l : Literal} (hl : l.Formed) :
    ∃ c cs, l.chars = c :: cs ∧ c.isDigit = true := by
  obtain ⟨c, cs, hwhole, hc⟩ := hl.whole.exists_cons
  exact ⟨c, _, by rw [chars, hwhole, List.cons_append], hc⟩

/-- The number with its sign in front. -/
def signedChars (l : Literal) : List Char := if l.negative then '-' :: l.chars else l.chars

/-- A number begins with a digit or with the sign. -/
theorem Formed.signedChars_cons {l : Literal} (hl : l.Formed) :
    ∃ c cs, l.signedChars = c :: cs ∧ (c.isDigit = true ∨ c = '-') := by
  rw [signedChars]
  cases l.negative with
  | false =>
    obtain ⟨c, cs, hchars, hc⟩ := hl.chars_cons
    exact ⟨c, cs, hchars, .inl hc⟩
  | true => exact ⟨'-', l.chars, rfl, .inr rfl⟩

end Literal

/-- A number is read back, whatever follows. -/
theorem readValue_signedChars {l : Literal} (hl : l.Formed) (h : Follows rest) :
    Reads (readValue (l.signedChars ++ rest)) l.value rest := by
  have hread := readUnsigned_chars hl h
  rw [Literal.signedChars]
  cases hnegative : l.negative with
  | false =>
    obtain ⟨c, cs, hchars, hc⟩ := hl.chars_cons
    rw [hnegative, hchars, List.cons_append] at hread
    obtain ⟨hrest, hread⟩ := hread
    rw [if_neg Bool.false_ne_true, hchars, List.cons_append, readValue_of_digit (.inl hc),
      readNumber_of_digit hc, hread]
    exact ⟨_, rfl⟩
  | true =>
    obtain ⟨hrest, hread⟩ := hread
    rw [hnegative] at hread
    rw [if_pos rfl, List.cons_append, readValue_of_digit (.inr rfl), readNumber, hread]
    exact ⟨_, rfl⟩

/-! ### Whole numbers -/

theorem natural_eq (ds : List Char) : Literal.natural ds = Nat.ofDigitChars 10 ds 0 := by
  have hfold : ∀ (ds : List Char) (m : Nat),
      ds.foldl (fun k c => k * 10 + Literal.digit c) m = Nat.ofDigitChars 10 ds m := by
    intro ds
    induction ds with
    | nil => intro m; rfl
    | cons d ds ih =>
      intro m
      rw [List.foldl_cons, Nat.ofDigitChars_cons, ih, Nat.mul_comm]
      rfl
  exact hfold ds 0

theorem natural_toDigits (n : Nat) : Literal.natural (Nat.toDigits 10 n) = n := by
  rw [natural_eq, Nat.ofDigitChars_ten_toDigits]

/-- A whole number as it is written. -/
def Literal.ofInt (i : Int) : Literal := ⟨i < 0, Nat.toDigits 10 i.natAbs, none, none⟩

theorem formed_ofInt (i : Int) : (Literal.ofInt i).Formed where
  whole := whole_toDigits i.natAbs
  fraction ds hds := by cases hds
  exponent e he := by cases he

theorem intChars_eq (i : Int) : intChars i = (Literal.ofInt i).signedChars := by
  have hchars : (Literal.ofInt i).chars = Nat.toDigits 10 i.natAbs := by
    rw [Literal.chars]
    exact List.append_nil _
  rw [Literal.signedChars, hchars, intChars]
  by_cases hi : i < 0
  · rw [if_pos hi]
    exact (if_pos (decide_eq_true hi)).symm
  · rw [if_neg hi]
    exact (if_neg (by simpa [Literal.ofInt] using hi)).symm

theorem value_ofInt {i : Int} (hlow : -(twoTo 63 : Int) ≤ i) (hhigh : i < twoTo 64) :
    (Literal.ofInt i).value = (Json.int i).toDocument := by
  have hhalf : twoTo 63 < twoTo 64 := by decide
  have hfits : i.natAbs < twoTo 64 := by omega
  rw [toDocument]
  by_cases hi : i < 0
  · have hpos : 0 < i.natAbs ∧ i.natAbs ≤ twoTo 63 := by omega
    rw [if_pos hi]
    simp only [Literal.value, Literal.ofInt, natural_toDigits, hi, hfits, hpos]
    rfl
  · rw [if_neg hi]
    simp only [Literal.value, Literal.ofInt, natural_toDigits, hi, hfits]
    rfl

/-- A whole number of 64 bits is read back. -/
theorem readValue_int {i : Int} (hlow : -(twoTo 63 : Int) ≤ i) (hhigh : i < twoTo 64)
    (h : Follows rest) : Reads (readValue (intChars i ++ rest)) (Json.int i).toDocument rest := by
  rw [intChars_eq, ← value_ofInt hlow hhigh]
  exact readValue_signedChars (formed_ofInt i) h

end Casework.Json
