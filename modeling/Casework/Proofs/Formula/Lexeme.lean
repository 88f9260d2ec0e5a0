import Casework.Formula.Lexer
import Casework.Proofs.Decimal.Numeral

/-!
# The longest lexeme

A lexeme is a number, a name or a symbol. No two of different kinds have the same text: already the
first character tells them apart. At the front of a text there may be several that are prefixes of
one another, as a number before and with its fraction. The longest one is taken, and none only if
there is none.
-/

namespace Casework.Formula

variable {c : Char} {cs ds rest : List Char}

namespace Lexeme

/-- What the rules of the language allow as a lexeme. -/
def Formed : Lexeme → Prop
  | .number text => ∃ n : Numeral, text = n.chars
  | .name text => ∃ c rest, text = c :: rest ∧ isNameStart c ∧ ∀ d ∈ rest, isNamePart d
  | .symbol _ => True

/-- It stands at the front of the text, and no longer lexeme does. -/
structure Heads (l : Lexeme) (cs : List Char) : Prop where
  formed : l.Formed
  front : l.text <+: cs
  longest : ∀ m : Lexeme, m.Formed → m.text <+: cs → m.text.length ≤ l.text.length

/-- The token that a lexeme stands for. -/
def Denotes : Lexeme → Token → Prop
  | .number text, .number d =>
    Decimal.ofChars? text = some d ∧ ∃ n : Numeral, text = n.chars ∧ n.Gives d
  | .name text, .name s => s = String.ofList text
  | .symbol s, .symbol t => s = t
  | _, _ => False

theorem Heads.shorter {l : Lexeme} (h : l.Heads (l.text ++ (cs ++ ds))) :
    l.Heads (l.text ++ cs) where
  formed := h.formed
  front := List.prefix_append ..
  longest m hm hfront := h.longest m hm <| by
    rw [← List.append_assoc]
    exact hfront.trans (List.prefix_append ..)

end Lexeme

/-! ### The first character -/

theorem toNat_of_isNameStart (h : isNameStart c) : 65 ≤ c.toNat ∧ c.toNat ≤ 122 := by
  have hstart : (decide ('A'.val ≤ c.val ∧ c.val ≤ 'Z'.val) ||
      (decide ('a'.val ≤ c.val) && decide (c.val ≤ 'z'.val)) || c == '_') = true := h
  simp only [Bool.or_eq_true, Bool.and_eq_true, decide_eq_true_eq, beq_iff_eq,
    UInt32.le_iff_toNat_le] at hstart
  rcases hstart with (⟨hlow, hhigh⟩ | ⟨hlow, hhigh⟩) | rfl
  · exact ⟨hlow, Nat.le_trans hhigh (by decide)⟩
  · exact ⟨Nat.le_trans (by decide) hlow, hhigh⟩
  · decide

theorem not_isDigit_of_isNameStart (h : isNameStart c) : ¬ c.isDigit := fun hdigit => by
  have hstart := toNat_of_isNameStart h
  have hrange := Text.toNat_of_isDigit hdigit
  omega

theorem ne_point_of_isNameStart (h : isNameStart c) : c ≠ '.' := by
  rintro rfl
  cases h

theorem isBlank_of_isNameStart (h : isNameStart c) : Text.isBlank c = false := by
  have hstart := toNat_of_isNameStart h
  simp [Text.isBlank]
  omega

/-- What the first character of a symbol is not. -/
theorem Symbol.exists_cons (s : Symbol) :
    ∃ c cs, s.text.toList = c :: cs ∧ c.isDigit = false ∧ c ≠ '.' ∧ isNameStart c = false ∧
      Text.isBlank c = false := by
  cases s <;> exact ⟨_, _, rfl, rfl, by decide, rfl, rfl⟩

namespace Lexeme

theorem Formed.exists_cons {l : Lexeme} (h : l.Formed) :
    ∃ c cs, l.text = c :: cs ∧ Text.isBlank c = false := by
  cases l with
  | number text =>
    obtain ⟨n, rfl⟩ := h
    obtain ⟨c, cs, hchars, hc⟩ := n.exists_cons
    refine ⟨c, cs, hchars, ?_⟩
    rcases hc with hc | rfl
    · exact Text.isBlank_of_isDigit hc
    · rfl
  | name text =>
    obtain ⟨c, cs, rfl, hc, -⟩ := h
    exact ⟨c, cs, rfl, isBlank_of_isNameStart hc⟩
  | symbol s =>
    obtain ⟨c, cs, htext, -, -, -, hc⟩ := s.exists_cons
    exact ⟨c, cs, htext, hc⟩

end Lexeme

/-! ### Numbers -/

theorem number_eq (cs : List Char) :
    number cs = cs.takeWhile Char.isDigit ++ fraction (cs.dropWhile Char.isDigit) := by
  have hdrop : cs.drop (cs.takeWhile Char.isDigit).length = cs.dropWhile Char.isDigit := by
    conv => lhs; arg 2; rw [← List.takeWhile_append_dropWhile (p := Char.isDigit) (l := cs)]
    rw [List.drop_left]
  rw [number, hdrop]

theorem fraction_eq (cs : List Char) :
    fraction cs = [] ∨ ∃ ds, ds ≠ [] ∧ (∀ d ∈ ds, d.isDigit) ∧ fraction cs = '.' :: ds ∧
      '.' :: ds <+: cs := by
  rw [fraction.eq_def]
  split
  · rename_i cs
    split
    · exact .inl rfl
    · rename_i hsome
      have hall : ∀ d ∈ cs.takeWhile Char.isDigit, d.isDigit :=
        fun d hd => List.all_eq_true.1 List.all_takeWhile d hd
      refine .inr ⟨_, by simpa using hsome, hall, rfl, ?_⟩
      exact List.cons_prefix_cons.2 ⟨rfl, List.takeWhile_prefix _⟩
  · exact .inl rfl

/-- What is read of a number is one, if anything is read. -/
theorem number_formed (h : number cs ≠ []) : ∃ n : Numeral, number cs = n.chars := by
  have hwhole : ∀ d ∈ cs.takeWhile Char.isDigit, d.isDigit :=
    fun d hd => List.all_eq_true.1 List.all_takeWhile d hd
  rw [number_eq] at h ⊢
  rcases fraction_eq (cs.dropWhile Char.isDigit) with hnone | ⟨ds, hsome, hdigits, hds, -⟩
  · rw [hnone, List.append_nil] at h ⊢
    refine ⟨⟨_, [], by simpa using hwhole, by simpa using h⟩, ?_⟩
    rw [Numeral.chars, if_pos rfl]
  · rw [hds]
    refine ⟨⟨cs.takeWhile Char.isDigit, ds, ?_, by simp [hsome]⟩, ?_⟩
    · intro d hd
      rcases List.mem_append.1 hd with hd | hd
      · exact hwhole d hd
      · exact hdigits d hd
    · rw [Numeral.chars, if_neg hsome]

theorem prefix_number (cs : List Char) : number cs <+: cs := by
  have hfraction : fraction (cs.dropWhile Char.isDigit) <+: cs.dropWhile Char.isDigit := by
    rcases fraction_eq (cs.dropWhile Char.isDigit) with hnone | ⟨ds, -, -, hds, hprefix⟩
    · rw [hnone]
      exact List.nil_prefix
    · rw [hds]
      exact hprefix
  rw [number_eq]
  conv => rhs; rw [← List.takeWhile_append_dropWhile (p := Char.isDigit) (l := cs)]
  exact (List.prefix_append_right_inj _).2 hfraction

theorem length_le_number (n : Numeral) (rest : List Char) :
    n.chars.length ≤ (number (n.chars ++ rest)).length := by
  have hwhole : ∀ c ∈ n.whole, c.isDigit := fun c hc => n.digits c (List.mem_append_left _ hc)
  have hfraction : ∀ c ∈ n.fraction, c.isDigit :=
    fun c hc => n.digits c (List.mem_append_right _ hc)
  rw [Numeral.chars, number_eq]
  split
  · rw [List.takeWhile_append_of_pos hwhole, List.append_assoc, List.length_append]
    exact Nat.le_add_right ..
  · rename_i hsome
    rw [List.append_assoc, List.takeWhile_append_of_pos hwhole,
      List.dropWhile_append_of_pos hwhole, List.cons_append,
      List.takeWhile_cons_of_neg (by decide), List.dropWhile_cons_of_neg (by decide), fraction,
      List.takeWhile_append_of_pos hfraction, if_neg (by simp [hsome])]
    simp

/-- No number begins with a character that is neither a digit nor a point. -/
theorem number_eq_nil (hdigit : c.isDigit = false) (hpoint : c ≠ '.') : number (c :: cs) = [] := by
  rw [number_eq, List.takeWhile_cons_of_neg (by simp [hdigit]),
    List.dropWhile_cons_of_neg (by simp [hdigit]), List.nil_append, fraction.eq_def]
  split
  · rename_i h
    exact absurd (List.cons.inj h).1 hpoint
  · rfl

/-! ### Lexemes -/

theorem lexeme?_number (n : Numeral) (rest : List Char) :
    lexeme? (n.chars ++ rest) = some (.number (number (n.chars ++ rest))) := by
  obtain ⟨c, cs, hchars, -⟩ := n.exists_cons
  have hlength := length_le_number n rest
  have hsome : number (n.chars ++ rest) ≠ [] := by
    rintro hnone
    rw [hnone, hchars] at hlength
    simp at hlength
  rw [lexeme?, if_pos (by simpa using hsome)]

theorem lexeme?_name (hc : isNameStart c) :
    lexeme? (c :: cs) = some (.name (c :: cs.takeWhile isNamePart)) := by
  have hnone : number (c :: cs) = [] :=
    number_eq_nil (by simpa using not_isDigit_of_isNameStart hc) (ne_point_of_isNameStart hc)
  rw [lexeme?, hnone, if_neg (by simp), if_pos (by simpa using hc),
    List.takeWhile_cons_of_pos (isNamePart_of_isNameStart hc)]

theorem lexeme?_symbol (s : Symbol) (rest : List Char) :
    lexeme? (s.text.toList ++ rest) = (symbol? (s.text.toList ++ rest)).map .symbol := by
  obtain ⟨c, cs, htext, hdigit, hpoint, hstart, -⟩ := s.exists_cons
  rw [htext, List.cons_append, lexeme?, number_eq_nil hdigit hpoint, if_neg (by simp),
    if_neg (by simp [hstart])]

theorem front_symbol? {s : Symbol} (h : symbol? cs = some s) : s.text.toList <+: cs := by
  rw [symbol?.eq_def] at h
  split at h <;> cases h <;> exact ⟨_, rfl⟩

/-- Behind a symbol of one character an equals sign may make a longer one. -/
theorem symbol?_text (s : Symbol) (rest : List Char) :
    ∃ t, symbol? (s.text.toList ++ rest) = some t ∧
      s.text.toList.length ≤ t.text.toList.length := by
  cases s with
  | less =>
    by_cases hlonger : ∃ tail, rest = '=' :: tail
    · obtain ⟨tail, rfl⟩ := hlonger
      exact ⟨.lessEqual, rfl, by decide⟩
    · refine ⟨.less, ?_, Nat.le_refl _⟩
      exact symbol?.eq_4 rest fun tail h => hlonger ⟨tail, h⟩
  | greater =>
    by_cases hlonger : ∃ tail, rest = '=' :: tail
    · obtain ⟨tail, rfl⟩ := hlonger
      exact ⟨.greaterEqual, rfl, by decide⟩
    · refine ⟨.greater, ?_, Nat.le_refl _⟩
      exact symbol?.eq_5 rest fun tail h => hlonger ⟨tail, h⟩
  | _ => exact ⟨_, rfl, Nat.le_refl _⟩

namespace Lexeme

theorem formed_of_lexeme? {l : Lexeme} (h : lexeme? cs = some l) : l.Formed ∧ l.text <+: cs := by
  rw [lexeme?] at h
  split at h
  · rename_i hsome
    cases h
    exact ⟨number_formed (by simpa using hsome), prefix_number cs⟩
  · split at h
    · rename_i hstart
      cases h
      cases cs with
      | nil => cases hstart
      | cons c cs =>
        have hc : isNameStart c := hstart
        rw [List.takeWhile_cons_of_pos (isNamePart_of_isNameStart hc)]
        refine ⟨⟨c, _, rfl, hc, fun d hd => List.all_eq_true.1 List.all_takeWhile d hd⟩, ?_⟩
        exact List.cons_prefix_cons.2 ⟨rfl, List.takeWhile_prefix _⟩
    · obtain ⟨s, hs, rfl⟩ := Option.map_eq_some_iff.1 h
      exact ⟨trivial, front_symbol? hs⟩

theorem Formed.lexeme?_text {l : Lexeme} (h : l.Formed) : lexeme? l.text = some l := by
  cases l with
  | number text =>
    obtain ⟨n, rfl⟩ := h
    have hread := lexeme?_number n []
    have hlength := length_le_number n []
    rw [List.append_nil] at hread hlength
    rw [text, hread, (prefix_number n.chars).eq_of_length_le hlength]
  | name text =>
    obtain ⟨c, cs, rfl, hc, hparts⟩ := h
    have hall : (cs ++ []).takeWhile isNamePart = cs ++ [].takeWhile isNamePart :=
      List.takeWhile_append_of_pos hparts
    rw [List.takeWhile_nil, List.append_nil] at hall
    rw [text, lexeme?_name hc, hall]
  | symbol s =>
    have hread := lexeme?_symbol s []
    rw [List.append_nil] at hread
    rw [text, hread]
    cases s <;> rfl

/-- A lexeme is known by its text. -/
theorem Formed.eq_of_text_eq {l m : Lexeme} (hl : l.Formed) (hm : m.Formed)
    (h : l.text = m.text) : l = m := by
  have hsome := hl.lexeme?_text
  rw [h, hm.lexeme?_text] at hsome
  exact (Option.some.inj hsome).symm

/-- Where one stands, one is found that is not shorter. -/
theorem Formed.found {m : Lexeme} (hm : m.Formed) (hfront : m.text <+: cs) :
    ∃ l, lexeme? cs = some l ∧ m.text.length ≤ l.text.length := by
  obtain ⟨rest, rfl⟩ := hfront
  cases m with
  | number text =>
    obtain ⟨n, rfl⟩ := hm
    exact ⟨_, lexeme?_number n rest, length_le_number n rest⟩
  | name text =>
    obtain ⟨c, cs, rfl, hc, hparts⟩ := hm
    refine ⟨_, lexeme?_name hc, ?_⟩
    rw [text, text, List.append_eq, List.takeWhile_append_of_pos hparts, List.length_cons,
      List.length_cons, List.length_append]
    omega
  | symbol s =>
    obtain ⟨t, ht, hlength⟩ := symbol?_text s rest
    refine ⟨.symbol t, ?_, hlength⟩
    rw [text, lexeme?_symbol, ht]
    rfl

theorem lexeme?_eq_some_iff {l : Lexeme} : lexeme? cs = some l ↔ l.Heads cs := by
  have hheads {l : Lexeme} (h : lexeme? cs = some l) : l.Heads cs := by
    obtain ⟨hformed, hfront⟩ := formed_of_lexeme? h
    refine ⟨hformed, hfront, fun m hm hother => ?_⟩
    obtain ⟨l', hl', hlength⟩ := hm.found hother
    rw [h] at hl'
    cases hl'
    exact hlength
  refine ⟨hheads, fun h => ?_⟩
  obtain ⟨l', hl', hlength⟩ := h.formed.found h.front
  have h' := hheads hl'
  have htext : l.text = l'.text :=
    (List.prefix_of_prefix_length_le h.front h'.front hlength).eq_of_length_le
      (h.longest l' h'.formed h'.front)
  rw [hl', h.formed.eq_of_text_eq h'.formed htext]

theorem lexeme?_eq_none_iff : lexeme? cs = none ↔ ∀ l : Lexeme, l.Formed → ¬ l.text <+: cs := by
  constructor
  · intro h l hl hfront
    obtain ⟨l', hl', -⟩ := hl.found hfront
    rw [h] at hl'
    cases hl'
  · intro h
    cases hread : lexeme? cs with
    | none => rfl
    | some l =>
      obtain ⟨hformed, hfront⟩ := formed_of_lexeme? hread
      exact absurd hfront (h l hformed)

/-! ### Tokens -/

theorem token_eq_ok_iff {l : Lexeme} (h : l.Formed) {offset : Nat} {t : Token} :
    l.token offset = .ok t ↔ l.Denotes t := by
  cases l with
  | number text =>
    obtain ⟨n, rfl⟩ := h
    rw [token]
    cases hread : Decimal.ofChars? n.chars with
    | none => cases t <;> simp [Denotes, hread]
    | some d =>
      have hgives := Decimal.gives_of_ofChars? hread
      cases t with
      | number e =>
        constructor
        · intro h
          cases h
          exact ⟨hread, n, rfl, hgives⟩
        · rintro ⟨hsame, -⟩
          rw [hread] at hsame
          cases hsame
          rfl
      | _ => simp [Denotes]
  | name text => cases t <;> simp [token, Denotes, eq_comm]
  | symbol s => cases t <;> simp [token, Denotes]

/-- Only a number that is larger than every decimal stands for no token. -/
theorem token_eq_error {l : Lexeme} (h : l.Formed) {offset : Nat} {err : FormulaError}
    (herr : l.token offset = .error err) :
    ∃ n : Numeral, l = .number n.chars ∧ err = .invalidNumber (String.ofList n.chars) offset ∧
      ∀ d : Decimal, d.value < n.value := by
  cases l with
  | number text =>
    obtain ⟨n, rfl⟩ := h
    rw [token] at herr
    cases hread : Decimal.ofChars? n.chars with
    | none =>
      rw [hread] at herr
      cases herr
      exact ⟨n, rfl, rfl, Decimal.value_lt_of_ofChars? hread⟩
    | some d =>
      rw [hread] at herr
      cases herr
  | name text => cases herr
  | symbol s => cases herr

end Lexeme

end Casework.Formula
