import Mathlib.Data.List.Forall2
import Casework.Proofs.Formula.Evaluation

/-!
# Reading with other numbers

Two rows of tokens that differ in their numbers only are read alike: both can be read, or both fail at
the same place, the one for the same reason as the other. Each reader is shown to do so; the induction
is on the number of tokens.
-/

namespace Casework.Formula

variable {like : Located → Located → Prop} {ts us : List Located} {α β γ δ : Type}

/-- The errors are the same, up to the token that is found: there it may be one that is like the
other. -/
inductive FormulaError.Mates (like : Located → Located → Prop) : FormulaError → FormulaError → Prop
  | same (err : FormulaError) : Mates like err err
  | unexpectedToken {t u : Located} (h : like t u) (expected : Expectation) :
      Mates like (.unexpectedToken t expected) (.unexpectedToken u expected)
  | trailingTokens {t u : Located} (h : like t u) :
      Mates like (.trailingTokens t) (.trailingTokens u)

/-- Both come to values that are related, or both to errors that are the same up to the token that is
found. -/
inductive Mated (like : Located → Located → Prop) (related : α → β → Prop) :
    Except FormulaError α → Except FormulaError β → Prop
  | ok {a : α} {b : β} (h : related a b) : Mated like related (.ok a) (.ok b)
  | error {err err' : FormulaError} (h : err.Mates like err') :
      Mated like related (.error err) (.error err')

theorem Mated.bind {related : α → β → Prop} {related' : γ → δ → Prop} {x : Except FormulaError α}
    {y : Except FormulaError β} {f : α → Except FormulaError γ} {g : β → Except FormulaError δ}
    (h : Mated like related x y) (hf : ∀ a b, related a b → Mated like related' (f a) (g b)) :
    Mated like related' (x >>= f) (y >>= g) := by
  cases h with
  | ok h => exact hf _ _ h
  | error h => exact .error h

/-- The tokens are pairwise alike, and like tokens differ in their numbers only. -/
structure Likened (like : Located → Located → Prop) (ts us : List Located) : Prop where
  outline : ∀ {t u}, like t u → t.token.outline = u.token.outline
  tokens : List.Forall₂ like ts us

/-- What is left behind the one value is like what is left behind the other. -/
def RestsAlike (like : Located → Located → Prop) (r : Read α ts) (r' : Read β us) : Prop :=
  Likened like r.rest r'.rest

def RestsAlikeMany (like : Located → Located → Prop) (r : ReadMany α ts) (r' : ReadMany β us) :
    Prop :=
  Likened like r.rest r'.rest

/-- The same, with as many arguments in both. -/
def ArgumentsAlike (like : Located → Located → Prop) (r : Read (List Expr) ts)
    (r' : Read (List Expr) us) : Prop :=
  r.value.length = r'.value.length ∧ Likened like r.rest r'.rest

/-! ### Single tokens -/

/-- A test of tokens that does not look at numbers. -/
def Blind (accept : Token → Option α) : Prop := ∀ t, accept t = accept t.outline

theorem Token.cases_of_outline {t u : Token} (h : t.outline = u.outline) :
    t = u ∨ ∃ value value', t = .number value ∧ u = .number value' := by
  cases u with
  | number value' =>
    obtain ⟨value, rfl⟩ := Token.eq_number_of_outline h
    exact .inr ⟨value, value', rfl, rfl⟩
  | symbol s => exact .inl (Token.eq_symbol_of_outline h)
  | name text =>
    cases t with
    | name text' => exact .inl h
    | number value => cases h
    | symbol s => cases h

theorem Blind.eq {accept : Token → Option α} (h : Blind accept) {t u : Token}
    (htu : t.outline = u.outline) : accept t = accept u := by
  rw [h t, htu, ← h u]

theorem sumOp?_blind : Blind sumOp? := by
  intro t
  cases t <;> rfl

theorem productOp?_blind : Blind productOp? := by
  intro t
  cases t <;> rfl

theorem comparison?_blind : Blind comparison? := by
  intro t
  cases t <;> rfl

/-- Likened tokens: both rows are at their end, or both have a token in front. -/
theorem Likened.cases (h : Likened like ts us) : (ts = [] ∧ us = []) ∨
    ∃ t ts' u us', ts = t :: ts' ∧ us = u :: us' ∧ like t u ∧
      t.token.outline = u.token.outline ∧ Likened like ts' us' := by
  obtain ⟨houtline, htokens⟩ := h
  cases htokens with
  | nil => exact .inl ⟨rfl, rfl⟩
  | cons htu hts => exact .inr ⟨_, _, _, _, rfl, rfl, htu, houtline htu, houtline, hts⟩

theorem readToken_mated {accept : Token → Option α} (hblind : Blind accept)
    (expected : Expectation) (h : Likened like ts us) :
    Mated like (RestsAlike like) (readToken accept expected ts) (readToken accept expected us) := by
  obtain ⟨rfl, rfl⟩ | ⟨t, ts, u, us, rfl, rfl, htu, houtline, hrest⟩ := h.cases
  · exact .error (.same _)
  · rw [readToken, readToken, hblind.eq houtline]
    cases accept u.token with
    | none => exact .error (.unexpectedToken htu expected)
    | some a => exact .ok hrest

theorem readSymbol_mated (s : Symbol) (expected : Expectation) (h : Likened like ts us) :
    Mated like (RestsAlike like) (readSymbol s expected ts) (readSymbol s expected us) := by
  refine readToken_mated ?_ expected h
  intro t
  cases t <;> rfl

theorem readKeyword_mated (k : Keyword) (h : Likened like ts us) :
    Mated like (RestsAlike like) (readKeyword k ts) (readKeyword k us) := by
  refine readToken_mated ?_ (.word k) h
  intro t
  cases t <;> rfl

/-! ### Rows -/

section Rows

variable {op? : Token → Option BinaryOp}
  {operand : (ts : List Located) → Except FormulaError (Read Expr ts)}
  {row : (ts : List Located) → Except FormulaError (ReadMany (List (BinaryOp × Expr)) ts)}

/-- All that is shorter than `n` is read alike. -/
def AlikeBelow (like : Located → Located → Prop) (n : Nat)
    (reader : (ts : List Located) → Except FormulaError (Read α ts)) : Prop :=
  ∀ ts us, ts.length < n → Likened like ts us →
    Mated like (RestsAlike like) (reader ts) (reader us)

theorem row_mated (hrow : ∀ ts, row ts = rowFrom (fun t => op? t.token) operand row ts)
    (hblind : Blind op?) (hoperand : AlikeBelow like ts.length operand) (h : Likened like ts us) :
    Mated like (RestsAlikeMany like) (row ts) (row us) := by
  induction hn : ts.length using Nat.strong_induction_on generalizing ts us with
  | _ n ih =>
    rw [hrow ts, hrow us]
    obtain ⟨rfl, rfl⟩ | ⟨t, ts, u, us, rfl, rfl, htu, houtline, hrest⟩ := h.cases
    · exact .ok h
    · simp only [rowFrom, hblind.eq houtline]
      cases op? u.token with
      | none => exact .ok h
      | some op =>
        refine (hoperand ts us length_lt_cons hrest).bind fun next next' hnext => ?_
        have hshorter : next.rest.length < n := by
          have := next.shorter
          simp only [List.length_cons] at hn
          omega
        refine (ih _ hshorter ?_ hnext rfl).bind fun others others' hothers => .ok hothers
        intro vs ws hvs
        exact hoperand vs ws (by simp only [hn]; omega)

end Rows

/-! ### The readers -/

/-- Whatever is shorter than `n` is read alike as a sum and as a signed operand. -/
structure MatedBelow (like : Located → Located → Prop) (n : Nat) : Prop where
  sum : AlikeBelow like n readSum
  signed : AlikeBelow like n readSigned

section

variable {n : Nat} (hbelow : MatedBelow like n)

include hbelow

theorem readParenthesized_mated (hts : ts.length < n) (h : Likened like ts us) :
    Mated like (RestsAlike like) (readParenthesized ts) (readParenthesized us) := by
  rw [readParenthesized, readParenthesized]
  refine (readSymbol_mated _ _ h).bind fun opening _ hopening => ?_
  have := opening.shorter
  refine (hbelow.sum _ _ (by omega) hopening).bind fun inner _ hinner => ?_
  exact (readSymbol_mated _ _ hinner).bind fun _ _ hclosing => .ok hclosing

theorem readChoice_mated (hts : ts.length < n) (h : Likened like ts us) :
    Mated like (RestsAlike like) (readChoice ts) (readChoice us) := by
  rw [readChoice, readChoice]
  refine (readSymbol_mated _ _ h).bind fun opening _ hopening => ?_
  have := opening.shorter
  refine (hbelow.sum _ _ (by omega) hopening).bind fun left _ hleft => ?_
  have := left.shorter
  refine (readToken_mated comparison?_blind _ hleft).bind fun test _ htest => ?_
  have := test.shorter
  refine (hbelow.sum _ _ (by omega) htest).bind fun right _ hright => ?_
  have := right.shorter
  refine (readSymbol_mated _ _ hright).bind fun closing _ hclosing => ?_
  have := closing.shorter
  refine (readKeyword_mated _ hclosing).bind fun thenWord _ hthenWord => ?_
  have := thenWord.shorter
  refine (readParenthesized_mated hbelow (by omega) hthenWord).bind fun thenBranch _ hthen => ?_
  have := thenBranch.shorter
  refine (readKeyword_mated _ hthen).bind fun elseWord _ helseWord => ?_
  have := elseWord.shorter
  exact (readParenthesized_mated hbelow (by omega) helseWord).bind fun _ _ helse => .ok helse

theorem readArgumentList_mated (hts : ts.length < n) (h : Likened like ts us) :
    Mated like (ArgumentsAlike like) (readArgumentList ts) (readArgumentList us) := by
  induction hm : ts.length using Nat.strong_induction_on generalizing ts us with
  | _ m ih =>
    rw [readArgumentList, readArgumentList]
    refine (hbelow.sum _ _ hts h).bind ?_
    rintro ⟨a, rest, hshorter⟩ ⟨a', rest', _⟩ hfirst
    obtain ⟨rfl, rfl⟩ | ⟨t, rest, u, rest', rfl, rfl, htu, houtline, hrest⟩ :=
      Likened.cases hfirst
    · exact .error (.same _)
    · simp only [List.length_cons] at hshorter
      obtain htoken | ⟨_, _, ht, hu⟩ := Token.cases_of_outline houtline
      · simp only [htoken]
        split
        · exact .ok ⟨rfl, hrest⟩
        · refine (ih _ (by omega) (by omega) hrest rfl).bind fun others others' hothers => ?_
          exact .ok ⟨congrArg Nat.succ hothers.1, hothers.2⟩
        · exact .error (.unexpectedToken htu _)
      · simp only [ht, hu]
        exact .error (.unexpectedToken htu _)

theorem readArguments_mated (hts : ts.length < n) (h : Likened like ts us) :
    Mated like (ArgumentsAlike like) (readArguments ts) (readArguments us) := by
  rw [readArguments, readArguments]
  refine (readSymbol_mated _ _ h).bind ?_
  rintro ⟨_, rest, hshorter⟩ ⟨_, rest', _⟩ hopening
  obtain ⟨rfl, rfl⟩ | ⟨t, rest, u, rest', rfl, rfl, htu, houtline, hrest⟩ :=
    Likened.cases hopening
  · exact .error (.same _)
  · have hclosing : t.token = .symbol .rightParen ↔ u.token = .symbol .rightParen := by
      obtain htoken | ⟨_, _, ht, hu⟩ := Token.cases_of_outline houtline
      · rw [htoken]
      · simp only [ht, hu, reduceCtorEq]
    simp only [hclosing]
    by_cases hu : u.token = .symbol .rightParen
    · simp only [if_pos hu]
      exact .ok ⟨rfl, hrest⟩
    · simp only [if_neg hu]
      have hshorter' : (t :: rest).length < n := Nat.lt_trans hshorter hts
      exact (readArgumentList_mated hbelow hshorter' hopening).bind fun _ _ h => .ok h

/-- A call behind the name of its function. -/
theorem call_mated {t u : Located} (function : Function) (hts : ts.length < n)
    (h : Likened like ts us) :
    Mated like (RestsAlike like)
      (do
        let arguments ← readArguments ts
        if function.takes arguments.value.length then
          return (arguments.map (Expr.call function)).after (length_le_cons (a := t))
        else throw (.argumentCount function arguments.value.length))
      (do
        let arguments ← readArguments us
        if function.takes arguments.value.length then
          return (arguments.map (Expr.call function)).after (length_le_cons (a := u))
        else throw (.argumentCount function arguments.value.length)) := by
  refine (readArguments_mated hbelow hts h).bind fun arguments arguments' harguments => ?_
  simp only [harguments.1]
  split
  · exact .ok harguments.2
  · exact .error (.same _)

/-- Tokens that are as long as `n` are read alike, too, as a signed operand. -/
theorem readSigned_mated (hts : ts.length ≤ n) (h : Likened like ts us) :
    Mated like (RestsAlike like) (readSigned ts) (readSigned us) := by
  rw [readSigned.eq_def ts, readSigned.eq_def us]
  obtain ⟨rfl, rfl⟩ | ⟨t, ts, u, us, rfl, rfl, htu, houtline, hrest⟩ := h.cases
  · exact .error (.same _)
  · have hlt : ts.length < n := hts
    obtain htoken | ⟨_, _, ht, hu⟩ := Token.cases_of_outline houtline
    · simp only [htoken]
      split
      · exact (hbelow.signed ts us hlt hrest).bind fun _ _ h => .ok h
      · exact (hbelow.signed ts us hlt hrest).bind fun _ _ h => .ok h
      · exact .ok hrest
      · refine (hbelow.sum ts us hlt hrest).bind fun inner inner' hinner => ?_
        exact (readSymbol_mated _ _ hinner).bind fun _ _ h => .ok h
      · split
        · exact (readChoice_mated hbelow hlt hrest).bind fun _ _ h => .ok h
        · split
          · exact call_mated hbelow _ hlt hrest
          · exact .error (.unexpectedToken htu _)
        · exact .error (.unexpectedToken htu _)
      · exact .error (.unexpectedToken htu _)
    · simp only [ht, hu]
      exact .ok hrest

theorem readProduct_mated (hts : ts.length ≤ n) (h : Likened like ts us) :
    Mated like (RestsAlike like) (readProduct ts) (readProduct us) := by
  rw [readProduct, readProduct]
  refine (readSigned_mated hbelow hts h).bind fun first first' hfirst => ?_
  have := first.shorter
  have hoperand : AlikeBelow like first.rest.length readSigned := fun vs ws hvs =>
    hbelow.signed vs ws (by omega)
  exact (row_mated readFactors_eq productOp?_blind hoperand hfirst).bind fun _ _ h => .ok h

theorem readSum_mated (hts : ts.length ≤ n) (h : Likened like ts us) :
    Mated like (RestsAlike like) (readSum ts) (readSum us) := by
  rw [readSum, readSum]
  refine (readProduct_mated hbelow hts h).bind fun first first' hfirst => ?_
  have := first.shorter
  have hoperand : AlikeBelow like first.rest.length readProduct := fun vs ws hvs =>
    readProduct_mated hbelow (by omega)
  exact (row_mated readSummands_eq sumOp?_blind hoperand hfirst).bind fun _ _ h => .ok h

end

theorem matedBelow (n : Nat) : MatedBelow like n := by
  induction n with
  | zero =>
    exact ⟨fun _ _ hts => absurd hts (Nat.not_lt_zero _),
      fun _ _ hts => absurd hts (Nat.not_lt_zero _)⟩
  | succ n ih =>
    exact ⟨fun _ _ hts h => readSum_mated ih (Nat.le_of_lt_succ hts) h,
      fun _ _ hts h => readSigned_mated ih (Nat.le_of_lt_succ hts) h⟩

/-- Formulas that differ in their numbers only are read alike. -/
theorem parse_mated (h : Likened like ts us) :
    Mated like (fun _ _ => True) (parse ts) (parse us) := by
  rw [parse, parse]
  obtain ⟨rfl, rfl⟩ | ⟨t, ts, u, us, rfl, rfl, _⟩ := h.cases
  · exact .error (.same _)
  · refine (readSum_mated (matedBelow _) (Nat.le_refl _) h).bind fun r r' hrest => ?_
    obtain ⟨hr, hr'⟩ | ⟨v, vs, w, ws, hr, hr', hvw, _⟩ := Likened.cases hrest
    · simp only [hr, hr']
      exact .ok trivial
    · simp only [hr, hr']
      exact .error (.trailingTokens hvw)

end Casework.Formula
