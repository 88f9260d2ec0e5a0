import Casework.Json.Printer
import Casework.Json.Reader

/-!
# Texts written as JSON

A text is written between quotes and with escapes. What is read up to the closing quote are pieces
that come together to the same text again: an escape with a letter names its character, one with
digits is a control character and no surrogate.
-/

namespace Casework.Json

variable {α β : Type} {cs us rest : List Char} {others : List Piece}

/-- The value is read, and the rest is left. -/
def Reads (x : Option (Read α cs)) (a : α) (rest : List Char) : Prop :=
  ∃ h, x = some ⟨a, rest, h⟩

theorem Reads.map_after {x : Option (Read α us)} {a : α} (h : Reads x a rest) (f : α → β)
    (hus : us.length ≤ cs.length) :
    Reads (do return ((← x).map f).after hus) (f a) rest := by
  obtain ⟨hrest, rfl⟩ := h
  exact ⟨_, rfl⟩

/-! ### Characters -/

theorem readPieces_quote : Reads (readPieces ('"' :: rest)) [] rest := by
  rw [readPieces]
  exact ⟨_, rfl⟩

theorem readPieces_simple {c d : Char} (hc : c ≠ 'u') (hd : simpleEscape? c = some d)
    (h : Reads (readPieces us) others rest) :
    Reads (readPieces ('\\' :: c :: us)) (.char d :: others) rest := by
  rw [readPieces.eq_def]
  simp only [↓Char.isValue, hc, imp_false, false_implies, implies_true, hd, Option.pure_def,
    Option.bind_eq_bind, Option.bind_some]
  exact h.map_after _ _

theorem hexQuad?_control {n : Nat} (h : n < 32) :
    hexQuad? '0' '0' (Nat.digitChar (n / 16)) (Nat.digitChar (n % 16)) = some n := by
  revert n
  decide

theorem readPieces_unit {n : Nat} (hn : n < 32) (h : Reads (readPieces us) others rest) :
    Reads (readPieces ('\\' :: 'u' :: '0' :: '0' :: (hexDigits n ++ us)))
      (.unit n :: others) rest := by
  rw [hexDigits, readPieces.eq_def]
  simp only [↓Char.isValue, List.cons_append, List.nil_append, hexQuad?_control hn, Option.pure_def,
    Option.bind_eq_bind, Option.bind_some]
  exact h.map_after _ _

theorem readPieces_plain {c : Char} (hquote : c ≠ '"') (hslash : c ≠ '\\') (hc : ¬ c.toNat < 32)
    (h : Reads (readPieces us) others rest) :
    Reads (readPieces (c :: us)) (.char c :: others) rest := by
  rw [readPieces.eq_def]
  simp only [hslash, hc, imp_false, false_implies, implies_true, decide_false, Bool.or_self,
    Bool.false_eq_true, ↓reduceIte, Option.pure_def, Option.bind_eq_bind]
  exact h.map_after _ _

theorem joinPieces?_char {c : Char} (h : joinPieces? others = some cs) :
    joinPieces? (.char c :: others) = some (c :: cs) := by
  rw [joinPieces?, h]
  rfl

theorem joinPieces?_unit {c : Char} (hc : c.toNat < 32) (h : joinPieces? others = some cs) :
    joinPieces? (.unit c.toNat :: others) = some (c :: cs) := by
  rw [joinPieces?.eq_def]
  simp only [if_neg (show ¬ (0xDC00 ≤ c.toNat ∧ c.toNat ≤ 0xDFFF) by omega),
    if_neg (show ¬ (0xD800 ≤ c.toNat ∧ c.toNat ≤ 0xDBFF) by omega), h, Char.ofNat_toNat]
  rfl

theorem escaped_cases (c : Char) :
    (∃ d, d ≠ 'u' ∧ simpleEscape? d = some c ∧ escaped c = ['\\', d]) ∨
      (c.toNat < 32 ∧ escaped c = '\\' :: 'u' :: '0' :: '0' :: hexDigits c.toNat) ∨
      (c ≠ '"' ∧ c ≠ '\\' ∧ ¬ c.toNat < 32 ∧ escaped c = [c]) := by
  by_cases hletter : c ∈ ['"', '\\', '\x08', '\t', '\n', '\x0c', '\r']
  · simp only [List.mem_cons, List.not_mem_nil, or_false] at hletter
    rcases hletter with rfl | rfl | rfl | rfl | rfl | rfl | rfl
    · exact .inl ⟨'"', by decide, rfl, rfl⟩
    · exact .inl ⟨'\\', by decide, rfl, rfl⟩
    · exact .inl ⟨'b', by decide, rfl, rfl⟩
    · exact .inl ⟨'t', by decide, rfl, rfl⟩
    · exact .inl ⟨'n', by decide, rfl, rfl⟩
    · exact .inl ⟨'f', by decide, rfl, rfl⟩
    · exact .inl ⟨'r', by decide, rfl, rfl⟩
  · simp only [List.mem_cons, List.not_mem_nil, or_false, not_or] at hletter
    obtain ⟨hquote, hslash, hb, ht, hn, hf, hr⟩ := hletter
    right
    rw [escaped, if_neg hquote, if_neg hslash, if_neg hb, if_neg ht, if_neg hn, if_neg hf,
      if_neg hr]
    by_cases hcontrol : c.toNat < 32
    · exact .inl ⟨hcontrol, if_pos hcontrol⟩
    · exact .inr ⟨hquote, hslash, hcontrol, if_neg hcontrol⟩

/-- A character that is written is read back, alone or by the unit that its escape names. -/
theorem readPieces_escaped (c : Char) (h : Reads (readPieces us) others rest) :
    ∃ p, Reads (readPieces (escaped c ++ us)) (p :: others) rest ∧
      ∀ {cs}, joinPieces? others = some cs → joinPieces? (p :: others) = some (c :: cs) := by
  rcases escaped_cases c with ⟨d, hd, hsimple, hc⟩ | ⟨hcontrol, hc⟩ | ⟨hquote, hslash, hcontrol, hc⟩
  · rw [hc]
    exact ⟨_, readPieces_simple hd hsimple h, joinPieces?_char⟩
  · rw [hc]
    exact ⟨_, readPieces_unit hcontrol h, joinPieces?_unit hcontrol⟩
  · rw [hc]
    exact ⟨_, readPieces_plain hquote hslash hcontrol h, joinPieces?_char⟩

theorem readPieces_quoted (cs : List Char) : ∃ pieces,
    Reads (readPieces (cs.flatMap escaped ++ '"' :: rest)) pieces rest ∧
      joinPieces? pieces = some cs := by
  induction cs with
  | nil => exact ⟨[], readPieces_quote, rfl⟩
  | cons c cs ih =>
    obtain ⟨others, hread, hjoin⟩ := ih
    obtain ⟨p, hp, hjoinP⟩ := readPieces_escaped c hread
    refine ⟨p :: others, ?_, hjoinP hjoin⟩
    rw [List.flatMap_cons, List.append_assoc]
    exact hp

/-- Behind its opening quote, a text is read back. -/
theorem readPieces_text (s : String) (rest : List Char) : ∃ pieces,
    Reads (readPieces (s.toList.flatMap escaped ++ '"' :: rest)) pieces rest ∧
      textOf pieces = .text s := by
  obtain ⟨pieces, hread, hjoin⟩ := readPieces_quoted s.toList
  refine ⟨pieces, hread, ?_⟩
  rw [textOf, hjoin, Option.elim_some, String.ofList_toList]

end Casework.Json
