import Casework.Proofs.Except
import Casework.Proofs.Formula.Lexeme

/-!
# A text and its tokens

The tokens of a text are its lexemes from left to right, each of them the longest at its place, with
nothing but blanks between them. Where the lexer gives up, everything before has been cut into
tokens, and there stands a character with which no lexeme begins or a number that is larger than
every decimal.
-/

namespace Casework.Formula

variable {c : Char} {cs blanks rest : List Char} {offset : Nat} {ts : List Located} {l : Lexeme}

/-- The number of bytes of a text. -/
def byteSize (cs : List Char) : Nat := (String.ofList cs).utf8ByteSize

theorem byteSize_append (cs ds : List Char) :
    byteSize (cs ++ ds) = byteSize cs + byteSize ds := by
  rw [byteSize, String.ofList_append, String.utf8ByteSize_append]
  rfl

theorem byteSize_singleton (c : Char) : byteSize [c] = c.utf8Size := by
  rw [byteSize, ← String.singleton_eq_ofList, String.utf8ByteSize_singleton]

theorem byteSize_cons (c : Char) (cs : List Char) :
    byteSize (c :: cs) = c.utf8Size + byteSize cs := by
  rw [← List.singleton_append, byteSize_append, byteSize_singleton]

theorem byteLength_eq_byteSize (cs : List Char) : byteLength cs = byteSize cs := by
  induction cs with
  | nil => rfl
  | cons c cs ih => rw [byteLength, ih, byteSize_cons]

/-- The text, which lies `offset` bytes behind the start, consists of the lexemes of the tokens,
each the longest at its place, and of blanks. -/
inductive Cut : Nat → List Char → List Located → Prop where
  | done {offset : Nat} {blanks : List Char} (hblanks : ∀ c ∈ blanks, Text.isBlank c) :
    Cut offset blanks []
  | token {offset : Nat} {blanks rest : List Char} {l : Lexeme} {t : Token} {ts : List Located}
    (hblanks : ∀ c ∈ blanks, Text.isBlank c) (hheads : l.Heads (l.text ++ rest))
    (hdenotes : l.Denotes t)
    (hrest : Cut (offset + byteSize blanks + byteSize l.text) rest ts) :
    Cut offset (blanks ++ (l.text ++ rest)) (⟨t, offset + byteSize blanks⟩ :: ts)

theorem Lexeme.Formed.byteSize_pos (h : l.Formed) : 0 < byteSize l.text := by
  obtain ⟨c, cs, htext, -⟩ := h.exists_cons
  rw [htext, byteSize_cons]
  exact Nat.add_pos_left c.utf8Size_pos _

namespace Cut

theorem blank (hc : Text.isBlank c) (h : Cut (offset + c.utf8Size) cs ts) :
    Cut offset (c :: cs) ts := by
  cases h with
  | done hblanks => exact .done (List.forall_mem_cons.2 ⟨hc, hblanks⟩)
  | token hblanks hheads hdenotes hrest =>
    rename_i blanks rest l t ts
    have hoffset : offset + c.utf8Size + byteSize blanks = offset + byteSize (c :: blanks) := by
      rw [byteSize_cons, Nat.add_assoc]
    rw [hoffset] at hrest ⊢
    exact .token (List.forall_mem_cons.2 ⟨hc, hblanks⟩) hheads hdenotes hrest

theorem lexeme {t : Token} (hheads : l.Heads (l.text ++ rest)) (hdenotes : l.Denotes t)
    (h : Cut (offset + byteSize l.text) rest ts) :
    Cut offset (l.text ++ rest) (⟨t, offset⟩ :: ts) :=
  @token offset [] rest l t ts (List.forall_mem_nil _) hheads hdenotes h

theorem le_offset (h : Cut offset cs ts) : ∀ t ∈ ts, offset ≤ t.offset := by
  induction h with
  | done hblanks => nofun
  | token hblanks hheads hdenotes hrest ih =>
    refine List.forall_mem_cons.2 ⟨Nat.le_add_right .., fun t ht => ?_⟩
    have hle := ih t ht
    omega

/-- Each token starts behind the one before. -/
theorem increasing (h : Cut offset cs ts) : ts.Pairwise (fun t u => t.offset < u.offset) := by
  induction h with
  | done hblanks => exact .nil
  | token hblanks hheads hdenotes hrest ih =>
    refine List.pairwise_cons.2 ⟨fun t ht => ?_, ih⟩
    have hle := hrest.le_offset t ht
    have hpos := hheads.formed.byteSize_pos
    exact Nat.lt_of_lt_of_le (Nat.lt_add_of_pos_right hpos) hle

end Cut

/-! ### The four ways on -/

theorem tokensFrom_blank (hc : Text.isBlank c) :
    tokensFrom offset (c :: cs) = tokensFrom (offset + c.utf8Size) cs := by
  rw [tokensFrom, if_pos hc]

theorem tokensFrom_none (hc : Text.isBlank c = false)
    (h : ∀ l : Lexeme, l.Formed → ¬ l.text <+: c :: cs) :
    tokensFrom offset (c :: cs) = .error (.invalidCharacter c offset) := by
  rw [tokensFrom, if_neg (by simp [hc])]
  split
  · rfl
  · rename_i hsome
    rw [Lexeme.lexeme?_eq_none_iff.2 h] at hsome
    cases hsome

theorem tokensFrom_lexeme (h : l.Heads (l.text ++ rest)) :
    tokensFrom offset (l.text ++ rest) = (do
      let token ← l.token offset
      let others ← tokensFrom (offset + byteSize l.text) rest
      return ⟨token, offset⟩ :: others) := by
  obtain ⟨c, cs, htext, hc⟩ := h.formed.exists_cons
  have hread := Lexeme.lexeme?_eq_some_iff.2 h
  rw [htext, List.cons_append] at hread
  rw [htext, List.cons_append, tokensFrom, if_neg (by simp [hc])]
  split
  · rename_i hnone
    rw [hread] at hnone
    cases hnone
  · rename_i l' hsome
    rw [hread] at hsome
    cases hsome
    rw [← List.cons_append, ← htext, List.drop_left, byteLength_eq_byteSize]

/-- Every text is empty, or begins with a blank, a lexeme or a character with which none begins. -/
theorem text_induction {motive : List Char → Prop} (nil : motive [])
    (blank : ∀ c cs, Text.isBlank c → motive cs → motive (c :: cs))
    (stuck : ∀ c cs, Text.isBlank c = false → (∀ l : Lexeme, l.Formed → ¬ l.text <+: c :: cs) →
      motive (c :: cs))
    (lexeme : ∀ (l : Lexeme) (rest : List Char), l.Heads (l.text ++ rest) → motive rest →
      motive (l.text ++ rest)) (cs : List Char) : motive cs := by
  induction hlength : cs.length using Nat.strongRecOn generalizing cs with
  | ind n ih =>
    subst hlength
    cases cs with
    | nil => exact nil
    | cons c cs =>
      cases hc : Text.isBlank c with
      | true => exact blank c cs hc (ih _ (Nat.lt_succ_self _) cs rfl)
      | false =>
        cases hread : lexeme? (c :: cs) with
        | none => exact stuck c cs hc (Lexeme.lexeme?_eq_none_iff.1 hread)
        | some l =>
          have hheads := Lexeme.lexeme?_eq_some_iff.1 hread
          obtain ⟨rest, hrest⟩ := hheads.front
          rw [← hrest] at hheads ⊢
          refine lexeme l rest hheads (ih _ ?_ rest rfl)
          have hpos := lexeme?_length_pos hread
          rw [← hrest, List.length_append]
          omega

/-! ### Tokens and errors -/

/-- The text, which lies `offset` bytes behind the start, begins with no token. -/
inductive Stuck (offset : Nat) : List Char → FormulaError → Prop where
  | character {c : Char} {cs : List Char} (hc : Text.isBlank c = false)
    (hnone : ∀ l : Lexeme, l.Formed → ¬ l.text <+: c :: cs) :
    Stuck offset (c :: cs) (.invalidCharacter c offset)
  | number {n : Numeral} {rest : List Char}
    (hheads : (Lexeme.number n.chars).Heads (n.chars ++ rest))
    (hlarge : ∀ d : Decimal, d.value < n.value) :
    Stuck offset (n.chars ++ rest) (.invalidNumber (String.ofList n.chars) offset)

theorem cut_of_tokensFrom (h : tokensFrom offset cs = .ok ts) : Cut offset cs ts := by
  induction cs using text_induction generalizing offset ts with
  | nil =>
    rw [tokensFrom] at h
    cases h
    exact .done (List.forall_mem_nil _)
  | blank c cs hc ih =>
    rw [tokensFrom_blank hc] at h
    exact (ih h).blank hc
  | stuck c cs hc hnone =>
    rw [tokensFrom_none hc hnone] at h
    cases h
  | lexeme l rest hheads ih =>
    rw [tokensFrom_lexeme hheads] at h
    obtain ⟨t, ht, h⟩ := bind_eq_ok.1 h
    obtain ⟨others, hothers, h⟩ := bind_eq_ok.1 h
    cases h
    exact .lexeme hheads ((Lexeme.token_eq_ok_iff hheads.formed).1 ht) (ih hothers)

theorem tokensFrom_blanks (h : ∀ c ∈ blanks, Text.isBlank c) :
    tokensFrom offset (blanks ++ cs) = tokensFrom (offset + byteSize blanks) cs := by
  induction blanks generalizing offset with
  | nil => rfl
  | cons c blanks ih =>
    obtain ⟨hc, hblanks⟩ := List.forall_mem_cons.1 h
    rw [List.cons_append, tokensFrom_blank hc, ih hblanks, byteSize_cons, Nat.add_assoc]

theorem tokensFrom_of_cut (h : Cut offset cs ts) : tokensFrom offset cs = .ok ts := by
  induction h with
  | @done offset blanks hblanks =>
    have hread : tokensFrom offset (blanks ++ []) = tokensFrom (offset + byteSize blanks) [] :=
      tokensFrom_blanks hblanks
    rw [List.append_nil, tokensFrom] at hread
    exact hread
  | token hblanks hheads hdenotes hrest ih =>
    rw [tokensFrom_blanks hblanks, tokensFrom_lexeme hheads,
      (Lexeme.token_eq_ok_iff hheads.formed).2 hdenotes, ih]
    rfl

/-- What stands before an error has been cut into tokens. -/
theorem stuck_of_tokensFrom {err : FormulaError} (h : tokensFrom offset cs = .error err) :
    ∃ before after ts, cs = before ++ after ∧ Cut offset before ts ∧
      Stuck (offset + byteSize before) after err := by
  induction cs using text_induction generalizing offset with
  | nil =>
    rw [tokensFrom] at h
    cases h
  | blank c cs hc ih =>
    rw [tokensFrom_blank hc] at h
    obtain ⟨before, after, ts, rfl, hcut, hstuck⟩ := ih h
    rw [Nat.add_assoc, ← byteSize_cons] at hstuck
    exact ⟨c :: before, after, ts, rfl, hcut.blank hc, hstuck⟩
  | stuck c cs hc hnone =>
    rw [tokensFrom_none hc hnone] at h
    cases h
    exact ⟨[], c :: cs, [], rfl, .done (List.forall_mem_nil _), .character hc hnone⟩
  | lexeme l rest hheads ih =>
    rw [tokensFrom_lexeme hheads] at h
    rcases bind_eq_error.1 h with htoken | ⟨t, ht, h⟩
    · obtain ⟨n, rfl, rfl, hlarge⟩ := Lexeme.token_eq_error hheads.formed htoken
      exact ⟨[], _, [], rfl, .done (List.forall_mem_nil _), .number hheads hlarge⟩
    · rcases bind_eq_error.1 h with hothers | ⟨_, -, h⟩
      · obtain ⟨before, after, ts, rfl, hcut, hstuck⟩ := ih hothers
        have hdenotes := (Lexeme.token_eq_ok_iff hheads.formed).1 ht
        rw [Nat.add_assoc, ← byteSize_append] at hstuck
        exact ⟨l.text ++ before, after, _, (List.append_assoc ..).symm,
          .lexeme hheads.shorter hdenotes hcut, hstuck⟩
      · cases h

/-- A text has tokens just if it can be cut into them, and then only in one way. If it has none,
there is a place to which it can be cut and where no token stands. -/
theorem tokenize_exact (s : String) :
    (∀ ts, tokenize s = .ok ts ↔ Cut 0 s.toList ts) ∧
    (∀ ts, tokenize s = .ok ts → ts.Pairwise (fun t u => t.offset < u.offset)) ∧
    ∀ err, tokenize s = .error err → ∃ before after ts, s.toList = before ++ after ∧
      tokenize (String.ofList before) = .ok ts ∧ Stuck (byteSize before) after err := by
  have hcut (ts : List Located) : tokenize s = .ok ts ↔ Cut 0 s.toList ts :=
    ⟨cut_of_tokensFrom, tokensFrom_of_cut⟩
  refine ⟨hcut, fun ts h => ((hcut ts).1 h).increasing, fun err h => ?_⟩
  obtain ⟨before, after, ts, hsplit, hbefore, hstuck⟩ := stuck_of_tokensFrom h
  rw [Nat.zero_add] at hstuck
  refine ⟨before, after, ts, hsplit, ?_, hstuck⟩
  rw [tokenize, String.toList_ofList]
  exact tokensFrom_of_cut hbefore

/-- The blank in the first text is three bytes long. -/
theorem tokenize_exact_discount :
    (∃ ts, ts.map Located.offset = [0, 7, 8] ∧ tokenize "rate\u2003*.5" = .ok ts ∧
      Cut 0 "rate\u2003*.5".toList ts ∧ ts.Pairwise (fun t u => t.offset < u.offset)) ∧
    ∃ before after ts, "rate #".toList = before ++ after ∧
      tokenize (String.ofList before) = .ok ts ∧
      Stuck (byteSize before) after (.invalidCharacter '#' 5) := by
  have hread : tokenize "rate\u2003*.5" = .ok [⟨.name "rate", 0⟩, ⟨.symbol .star, 7⟩,
      ⟨.number ⟨false, 5, 1, by decide, by decide⟩, 8⟩] := by decide +kernel
  obtain ⟨hcut, hincreasing, -⟩ := tokenize_exact "rate\u2003*.5"
  obtain ⟨-, -, hstuck⟩ := tokenize_exact "rate #"
  exact ⟨⟨_, rfl, hread, (hcut _).1 hread, hincreasing _ hread⟩, hstuck _ (by decide +kernel)⟩

end Casework.Formula
