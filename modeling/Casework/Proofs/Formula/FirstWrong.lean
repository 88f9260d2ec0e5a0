import Casework.Proofs.Formula.Viability

/-!
# The first wrong token

Phrases with wrong numbers of arguments only are read to their end, unless such a number is found
first. So a token at which reading fails for another reason is one with which no phrase goes on: a
phrase that did would be read, up to this token, in the same way. The induction is on the
derivation; a row behind a sum or a product is read along with it.
-/

namespace Casework.Formula

variable {α β : Type} {ts us rest mid : List Located}

/-! ### What is derivable is read -/

/-- The rest is reached, unless a wrong number of arguments comes first. -/
def Gets (x : Except FormulaError (α × List Located)) (rest : List Located) : Prop :=
  (∃ a, x = .ok (a, rest)) ∨ ∃ f n, x = .error (.argumentCount f n)

namespace Gets

variable {p : Scan α} {k : α → Scan β}

theorem bind (hp : Gets (p ts) mid) (hk : ∀ a, Gets (k a mid) rest) : Gets ((p >>= k) ts) rest := by
  change Gets (p ts >>= fun r => k r.1 r.2) rest
  obtain ⟨a, ha⟩ | ⟨f, n, hcount⟩ := hp
  · rw [ha]
    exact hk a
  · rw [hcount]
    exact .inr ⟨f, n, rfl⟩

theorem pure (a : α) (rest : List Located) : Gets ((Pure.pure a : Scan α) rest) rest :=
  .inl ⟨a, rfl⟩

theorem rest_eq {a : α} (h : Gets (.ok (a, mid)) rest) : mid = rest := by
  obtain ⟨b, hb⟩ | ⟨f, n, hcount⟩ := h
  · cases hb
    rfl
  · cases hcount

theorem eq_argumentCount {err : FormulaError}
    (h : Gets (.error err : Except FormulaError (α × List Located)) rest) :
    ∃ f n, err = .argumentCount f n := by
  obtain ⟨b, hb⟩ | ⟨f, n, hcount⟩ := h
  · cases hb
  · cases hcount
    exact ⟨f, n, rfl⟩

end Gets

theorem readToken_gets {accept : Token → Option α} {expected : Expectation} {t : Located} {a : α}
    (h : accept t.token = some a) : Gets (scan (readToken accept expected) (t :: rest)) rest := by
  rw [scan, readToken, h]
  exact .inl ⟨a, rfl⟩

theorem readSymbol_gets {s : Symbol} {expected : Expectation} {t : Located}
    (h : t.token = .symbol s) : Gets (scan (readSymbol s expected) (t :: rest)) rest :=
  readToken_gets (if_pos h)

theorem readKeyword_gets {k : Keyword} {t : Located} (h : k.Spells t.token) :
    Gets (scan (readKeyword k) (t :: rest)) rest :=
  readToken_gets (if_pos (Keyword.spells_iff.1 h))

section Rows

variable {op? : Token → Option BinaryOp}
  {operand : (ts : List Located) → Except FormulaError (Read Expr ts)}
  {row : (ts : List Located) → Except FormulaError (ReadMany (List (BinaryOp × Expr)) ts)}

theorem row_gets_nothing (hrow : ∀ ts, row ts = rowFrom (fun t => op? t.token) operand row ts)
    (h : NoOp op? ts) : Gets (scanMany row ts) ts :=
  .inl ⟨[], scanMany_of_noOp hrow h⟩

theorem row_gets (hrow : ∀ ts, row ts = rowFrom (fun t => op? t.token) operand row ts)
    {t : Located} {op : BinaryOp} (hop : op? t.token = some op)
    (hoperand : Gets (scan operand us) mid) (hothers : Gets (scanMany row mid) rest) :
    Gets (scanMany row (t :: us)) rest := by
  rw [scanMany_cons hrow hop]
  exact hoperand.bind fun _ => hothers.bind fun _ => .pure ..

end Rows

/-- The tokens are read as a phrase of the level, whatever stands behind them. -/
def Readable : Level → List Token → Prop
  | .sum, ts => ∀ ⦃front rest last : List Located⦄, front.map Located.token = ts →
      NoOp productOp? rest → Gets (scanMany readSummands rest) last →
      Gets (scan readSum (front ++ rest)) last
  | .product, ts => ∀ ⦃front rest last : List Located⦄, front.map Located.token = ts →
      Gets (scanMany readFactors rest) last → Gets (scan readProduct (front ++ rest)) last
  | .signed, ts | .operand, ts => ∀ ⦃front rest : List Located⦄,
      front.map Located.token = ts → Gets (scan readSigned (front ++ rest)) rest

/-- A sum is read up to a token that is no operator. -/
theorem Readable.sum_before {w : List Token} (h : Readable .sum w) {front : List Located}
    (hfront : front.map Located.token = w) (hsum : NoOp sumOp? rest)
    (hproduct : NoOp productOp? rest) : Gets (scan readSum (front ++ rest)) rest :=
  h hfront hproduct (row_gets_nothing readSummands_eq hsum)

theorem noOp_cons {op? : Token → Option BinaryOp} {t : Located} (h : op? t.token = none) :
    NoOp op? (t :: us) := by
  intro u hu
  cases hu
  exact h

/-- A sum is read up to a symbol that is no operator. -/
theorem Readable.sum_before_symbol {w : List Token} (h : Readable .sum w) {front : List Located}
    (hfront : front.map Located.token = w) {u : Located} {s : Symbol} (hu : u.token = .symbol s)
    (hsum : sumOp? (.symbol s) = none) (hproduct : productOp? (.symbol s) = none) :
    Gets (scan readSum (front ++ u :: rest)) (u :: rest) :=
  h.sum_before hfront (noOp_cons (by rw [hu, hsum])) (noOp_cons (by rw [hu, hproduct]))

theorem readParenthesized_gets {inner : List Token} (h : Readable .sum inner)
    {front : List Located} (hfront : front.map Located.token = parenthesized inner) :
    Gets (scan readParenthesized (front ++ rest)) rest := by
  obtain ⟨t, front, u, rfl, ht, hinner, hu⟩ := map_token_eq_parenthesized hfront
  rw [scan_readParenthesized, List.cons_append, List.append_assoc]
  refine (readSymbol_gets ht).bind fun _ => ?_
  refine (h.sum_before_symbol hinner hu rfl rfl).bind fun _ => ?_
  exact (readSymbol_gets hu).bind fun _ => .pure ..

theorem readArgumentList_gets {pieces : List (List Token)} (hne : pieces ≠ [])
    (hpieces : ∀ w ∈ pieces, Readable .sum w) {front : List Located}
    (hfront : front.map Located.token = commaRow pieces ++ [.symbol .rightParen]) :
    Gets (scan readArgumentList (front ++ rest)) rest := by
  induction pieces generalizing front with
  | nil => exact absurd rfl hne
  | cons w pieces ih =>
    have hw := hpieces w List.mem_cons_self
    rw [scan_readArgumentList]
    by_cases hmore : pieces = []
    · rw [hmore, commaRow_singleton] at hfront
      obtain ⟨frontW, last, rfl, hfrontW, hlast⟩ := List.map_eq_append_iff.1 hfront
      obtain ⟨u, rfl, hu⟩ := List.map_eq_singleton_iff.1 hlast
      rw [List.append_assoc]
      refine (hw.sum_before_symbol hfrontW hu rfl rfl).bind fun first => ?_
      rw [argumentEnd, hu]
      exact .inl ⟨[first], rfl⟩
    · rw [commaRow_cons hmore, List.append_assoc] at hfront
      obtain ⟨frontW, last, rfl, hfrontW, hlast⟩ := List.map_eq_append_iff.1 hfront
      obtain ⟨u, others, rfl, hu, hothers⟩ := List.map_eq_cons_iff.1 hlast
      have hothers := ih hmore (fun v hv => hpieces v (List.mem_cons_of_mem w hv)) hothers
      rw [List.append_assoc]
      refine (hw.sum_before_symbol hfrontW hu rfl rfl).bind fun first => ?_
      rw [argumentEnd, hu]
      exact hothers.bind fun _ => .pure ..

theorem readArguments_gets {pieces : List (List Token)}
    (hderivable : ∀ w ∈ pieces, Derivable .sum w) (hpieces : ∀ w ∈ pieces, Readable .sum w)
    {front : List Located} (hfront : front.map Located.token = parenthesized (commaRow pieces)) :
    Gets (scan readArguments (front ++ rest)) rest := by
  obtain ⟨t, inner, rfl, ht, hinner⟩ := List.map_eq_cons_iff.1 hfront
  rw [scan_readArguments]
  refine (readSymbol_gets ht).bind fun _ => ?_
  cases pieces with
  | nil =>
    obtain ⟨u, rfl, hu⟩ := List.map_eq_singleton_iff.1 hinner
    rw [List.append_eq, List.singleton_append, argumentsBehind, if_pos hu]
    exact .inl ⟨[], rfl⟩
  | cons w pieces =>
    obtain ⟨a, us, rfl, ha⟩ := (hderivable w List.mem_cons_self).exists_cons
    obtain ⟨behind, hbehind⟩ := prefix_commaRow (a :: us) pieces
    have hlist : Gets (scan readArgumentList (inner ++ rest)) rest :=
      readArgumentList_gets (List.cons_ne_nil _ pieces) hpieces hinner
    rw [← hbehind] at hinner
    obtain ⟨u, inner, rfl, rfl, -⟩ := List.map_eq_cons_iff.1 hinner
    rw [List.append_eq, List.cons_append, argumentsBehind, if_neg ha]
    exact hlist

/-! ### Whole phrases -/

theorem readSigned_gets {t : Located} {p : Scan Expr} (h : signedBehind t = p)
    (hp : Gets (p us) rest) : Gets (scan readSigned (t :: us)) rest := by
  rw [scan_readSigned_cons, h]
  exact hp

theorem choice_readable {i t l : Token} (hif : Keyword.ifWord.Spells i)
    (hthen : Keyword.thenWord.Spells t) (helse : Keyword.elseWord.Spells l) (test : Comparison)
    {as bs cs ds : List Token} (ha : Readable .sum as) (hb : Readable .sum bs)
    (hc : Readable .sum cs) (hd : Readable .sum ds) :
    Readable .operand (i :: parenthesized (as ++ .symbol test.symbol :: bs) ++
      t :: parenthesized cs ++ l :: parenthesized ds) := by
  intro front rest hfront
  rw [List.append_assoc] at hfront
  obtain ⟨w, front, rfl, hi, hfront⟩ := List.map_eq_cons_iff.1 hfront
  obtain ⟨condition, front, rfl, hcondition, hfront⟩ := List.map_eq_append_iff.1 hfront
  obtain ⟨k, front, rfl, hk, hfront⟩ := List.map_eq_cons_iff.1 hfront
  obtain ⟨thenFront, front, rfl, hthenFront, hfront⟩ := List.map_eq_append_iff.1 hfront
  obtain ⟨m, elseFront, rfl, hm, helseFront⟩ := List.map_eq_cons_iff.1 hfront
  obtain ⟨o, inner, u, rfl, ho, hinner, hu⟩ := map_token_eq_parenthesized hcondition
  obtain ⟨frontA, inner, rfl, hfrontA, hinner⟩ := List.map_eq_append_iff.1 hinner
  obtain ⟨x, frontB, rfl, hx, hfrontB⟩ := List.map_eq_cons_iff.1 hinner
  subst hi hk hm
  have hassoc : w :: (o :: (frontA ++ x :: frontB ++ [u]) ++ k :: (thenFront ++ m :: elseFront)) ++
      rest = w :: o :: (frontA ++ x :: (frontB ++ u :: k :: (thenFront ++ m :: (elseFront ++
        rest)))) := by simp
  have htest : sumOp? (.symbol test.symbol) = none ∧ productOp? (.symbol test.symbol) = none := by
    cases test <;> exact ⟨rfl, rfl⟩
  rw [hassoc]
  refine readSigned_gets (signedBehind_if hif) ?_
  rw [scan_readChoice]
  refine (readSymbol_gets ho).bind fun _ => ?_
  refine (ha.sum_before_symbol hfrontA hx htest.1 htest.2).bind fun _ => ?_
  refine (readToken_gets (comparison?_eq_some.2 hx)).bind fun _ => ?_
  refine (hb.sum_before_symbol hfrontB hu rfl rfl).bind fun _ => ?_
  refine (readSymbol_gets hu).bind fun _ => ?_
  refine (readKeyword_gets hthen).bind fun _ => ?_
  refine (readParenthesized_gets hc hthenFront).bind fun _ => ?_
  refine (readKeyword_gets helse).bind fun _ => ?_
  exact (readParenthesized_gets hd helseFront).bind fun _ => .pure ..

theorem call_readable {f : Function} {t : Token} (hname : f.keyword.Spells t)
    {pieces : List (List Token)} (hderivable : ∀ w ∈ pieces, Derivable .sum w)
    (hpieces : ∀ w ∈ pieces, Readable .sum w) :
    Readable .operand (t :: parenthesized (commaRow pieces)) := by
  intro front rest hfront
  obtain ⟨w, inner, rfl, rfl, hinner⟩ := List.map_eq_cons_iff.1 hfront
  refine readSigned_gets (signedBehind_call hname) ?_
  refine (readArguments_gets hderivable hpieces hinner).bind fun arguments => ?_
  split
  · exact .pure ..
  · exact .inr ⟨f, arguments.length, rfl⟩

/-- By induction on the derivation. -/
theorem readable {level : Level} {w : List Token} (h : Derivable level w) : Readable level w := by
  induction h with
  | sumOfProduct _ ih =>
    intro front rest last hfront hnone hrow
    rw [scan_readSum]
    refine (ih hfront (row_gets_nothing readFactors_eq hnone)).bind fun _ => ?_
    exact hrow.bind fun _ => .pure ..
  | sum hop _ _ iha ihb =>
    intro front rest last hfront hnone hrow
    obtain ⟨frontA, more, rfl, hfrontA, hmore⟩ := List.map_eq_append_iff.1 hfront
    obtain ⟨t, frontB, rfl, ht, hfrontB⟩ := List.map_eq_cons_iff.1 hmore
    have hb := ihb hfrontB (row_gets_nothing readFactors_eq hnone)
    have hno : productOp? t.token = none := by
      rw [ht]
      rcases hop with rfl | rfl <;> rfl
    rw [List.append_assoc]
    exact iha hfrontA (noOp_cons hno)
      (row_gets readSummands_eq (sumOp?_eq_some.2 ⟨hop, ht⟩) hb hrow)
  | productOfSigned _ ih =>
    intro front rest last hfront hrow
    rw [scan_readProduct]
    exact (ih hfront).bind fun _ => hrow.bind fun _ => .pure ..
  | product hop _ _ iha ihb =>
    intro front rest last hfront hrow
    obtain ⟨frontA, more, rfl, hfrontA, hmore⟩ := List.map_eq_append_iff.1 hfront
    obtain ⟨t, frontB, rfl, ht, hfrontB⟩ := List.map_eq_cons_iff.1 hmore
    rw [List.append_assoc]
    exact iha hfrontA (row_gets readFactors_eq (productOp?_eq_some.2 ⟨hop, ht⟩) (ihb hfrontB) hrow)
  | signedOfOperand _ ih => exact ih
  | plus _ ih =>
    intro front rest hfront
    obtain ⟨t, inner, rfl, ht, hinner⟩ := List.map_eq_cons_iff.1 hfront
    exact readSigned_gets (by rw [signedBehind, ht]) (ih hinner)
  | minus _ ih =>
    intro front rest hfront
    obtain ⟨t, inner, rfl, ht, hinner⟩ := List.map_eq_cons_iff.1 hfront
    exact readSigned_gets (by rw [signedBehind, ht]) ((ih hinner).bind fun _ => .pure ..)
  | number value =>
    intro front rest hfront
    obtain ⟨t, rfl, ht⟩ := List.map_eq_singleton_iff.1 hfront
    exact readSigned_gets (by rw [signedBehind, ht]) (.pure ..)
  | parentheses _ ih =>
    intro front rest hfront
    obtain ⟨t, inner, u, rfl, ht, hinner, hu⟩ := map_token_eq_parenthesized hfront
    rw [List.cons_append, List.append_assoc]
    refine readSigned_gets (by rw [signedBehind, ht]) ?_
    refine (ih.sum_before_symbol hinner hu rfl rfl).bind fun _ => ?_
    exact (readSymbol_gets hu).bind fun _ => .pure ..
  | choice hif hthen helse test _ _ _ _ iha ihb ihc ihd =>
    exact choice_readable hif hthen helse test iha ihb ihc ihd
  | call hname pieces hpieces ih => exact call_readable hname hpieces ih

/-! ### Errors of whole formulas -/

theorem parse_eq_scan (h : ts ≠ []) : parse ts = (do
    let (e, rest) ← scan readSum ts
    match rest with
    | [] => return e
    | t :: _ => throw (.trailingTokens t)) := by
  rw [parse, if_neg (by simpa using h), scan]
  cases readSum ts with
  | error err => rfl
  | ok r => rfl

/-- All of a formula is read. -/
theorem readSum_gets_all (h : Derivable .sum (ts.map Located.token)) :
    Gets (scan readSum ts) [] := by
  have hnone (op? : Token → Option BinaryOp) : NoOp op? [] := nofun
  have hall := (readable h).sum_before rfl (hnone _) (hnone _)
  rwa [List.append_nil] at hall

/-- Only a wrong number of arguments keeps a derivable row of tokens from being parsed. -/
theorem parse_of_derivable (h : Derivable .sum (ts.map Located.token)) :
    (∃ e, parse ts = .ok e) ∨ ∃ f n, parse ts = .error (.argumentCount f n) := by
  have hne : ts ≠ [] := by
    rintro rfl
    obtain ⟨_, _, hcons, -⟩ := h.exists_cons
    cases hcons
  rw [parse_eq_scan hne]
  obtain ⟨e, he⟩ | ⟨f, n, hcount⟩ := readSum_gets_all h
  · rw [he]
    exact .inl ⟨e, rfl⟩
  · rw [hcount]
    exact .inr ⟨f, n, rfl⟩

/-- Up to this token the tokens are the front of a formula, and with it they are not. -/
def FirstWrong (t : Located) (ts : List Located) : Prop :=
  ∃ before after, ts = before ++ t :: after ∧ Viable (before.map Located.token) ∧
    ¬ Viable (before.map Located.token ++ [t.token])

/-- The tokens are no formula, but more of them would make one. -/
def Unfinished (ts : List Located) : Prop :=
  ¬ Derivable .sum (ts.map Located.token) ∧
    ∃ more, more ≠ [] ∧ Derivable .sum (ts.map Located.token ++ more)

/-- Somewhere among the tokens stands a call of the function with `n` arguments. -/
def HasCall (f : Function) (n : Nat) (ts : List Located) : Prop :=
  ∃ before call after, ts = before ++ (call ++ after) ∧ IsCall f n (call.map Located.token)

/-- What an error of the parser says of the tokens. -/
inductive Grounds (ts : List Located) : FormulaError → Prop
  | empty (h : ts = []) : Grounds ts .empty
  | unexpectedToken {t : Located} (expected : Expectation) (h : FirstWrong t ts) :
    Grounds ts (.unexpectedToken t expected)
  | trailingTokens {t : Located} (h : FirstWrong t ts) : Grounds ts (.trailingTokens t)
  | unexpectedEnd (expected : Expectation) (h : Unfinished ts) :
    Grounds ts (.unexpectedEnd expected)
  | argumentCount {f : Function} {n : Nat} (h : HasCall f n ts) : Grounds ts (.argumentCount f n)

theorem not_viable {before : List Located} {t : Located}
    (h : ∀ after, ¬ Gets (scan readSum (before ++ t :: after)) []) :
    ¬ Viable (before.map Located.token ++ [t.token]) := by
  rintro ⟨more, hmore⟩
  let after : List Located := more.map fun token => ⟨token, 0⟩
  have hafter : after.map Located.token = more := by
    rw [List.map_map]
    exact List.map_id more
  refine h after (readSum_gets_all ?_)
  rwa [List.map_append, List.map_cons, hafter, List.append_cons]

theorem viable_of_begun {w : List Token} (h : Begun (Phrase .sum) w) : Viable w := by
  obtain ⟨_, more, hphrase⟩ := h
  exact ⟨more, hphrase⟩

/-- A token that is left behind a formula cannot be one of it. -/
theorem firstWrong_of_left {e : Expr} {front after : List Located} {t : Located}
    (hphrase : Derivable .sum (front.map Located.token))
    (h : ∀ after', scan readSum (front ++ t :: after') = .ok (e, t :: after')) :
    FirstWrong t (front ++ t :: after) := by
  refine ⟨front, after, rfl, ⟨[], by rwa [List.append_nil]⟩, not_viable fun after' hgets => ?_⟩
  rw [h after'] at hgets
  cases hgets.rest_eq

theorem firstWrong_of_unexpected {expected : Expectation} {before after : List Located}
    {t : Located} (hbegun : Begun (Phrase .sum) (before.map Located.token))
    (h : ∀ after', scan readSum (before ++ t :: after') = .error (.unexpectedToken t expected)) :
    FirstWrong t (before ++ t :: after) := by
  refine ⟨before, after, rfl, viable_of_begun hbegun, not_viable fun after' hgets => ?_⟩
  rw [h after'] at hgets
  obtain ⟨_, _, hcount⟩ := hgets.eq_argumentCount
  cases hcount

theorem unfinished_of_end {expected : Expectation}
    (hbegun : Begun (Phrase .sum) (ts.map Located.token))
    (h : scan readSum ts = .error (.unexpectedEnd expected)) : Unfinished ts := by
  have hnone : ¬ Derivable .sum (ts.map Located.token) := by
    intro hderivable
    have hgets := readSum_gets_all hderivable
    rw [h] at hgets
    obtain ⟨_, _, hcount⟩ := hgets.eq_argumentCount
    cases hcount
  obtain ⟨more, hmore⟩ := viable_of_begun hbegun
  refine ⟨hnone, more, ?_, hmore⟩
  rintro rfl
  rw [List.append_nil] at hmore
  exact hnone hmore

/-- An error of the parser points at the first wrong token, at the end of what is only the front of
a formula, or at a call. -/
theorem parse_points_at_first_wrong {err : FormulaError} (h : parse ts = .error err) :
    Grounds ts err := by
  by_cases hne : ts = []
  · rw [hne] at h
    cases h
    exact .empty hne
  · rw [parse_eq_scan hne] at h
    cases (foreseesBelow (ts.length + 1)).sum.foretold ts (Nat.lt_succ_self _) with
    | read front rest hphrase hread =>
      rw [hread rest rfl] at h
      cases rest with
      | nil => cases h
      | cons t after =>
        cases h
        exact .trailingTokens (firstWrong_of_left hphrase fun after' => hread (t :: after') rfl)
    | wrong expected before after hbegun hwrong =>
      rw [hwrong] at h
      cases h
      exact .unexpectedToken expected (firstWrong_of_unexpected hbegun hwrong)
    | ended expected hbegun hended =>
      rw [hended] at h
      cases h
      exact .unexpectedEnd expected (unfinished_of_end hbegun hended)
    | miscounted before call after hcall hcount =>
      rw [hcount] at h
      cases h
      exact .argumentCount ⟨before, call, after, rfl, hcall⟩

theorem parse_abs :
    parse [⟨.name "abs", 0⟩, ⟨.symbol .leftParen, 3⟩, ⟨.symbol .rightParen, 4⟩] =
      .error (.argumentCount .abs 0) := by
  have hkeyword : Keyword.ofName? "abs" = some .absWord := rfl
  have hsigned : readSigned
      [⟨.name "abs", 0⟩, ⟨.symbol .leftParen, 3⟩, ⟨.symbol .rightParen, 4⟩] =
        .error (.argumentCount .abs 0) := by
    rw [readSigned.eq_def]
    simp only [hkeyword]
    rw [readArguments]
    rfl
  rw [parse, readSum, readProduct, hsigned]
  rfl

/-- Of `()`, `0)`, `(` and `abs()`. -/
theorem parse_points_at_first_wrong_short :
    Grounds [⟨.symbol .leftParen, 0⟩, ⟨.symbol .rightParen, 1⟩]
      (.unexpectedToken ⟨.symbol .rightParen, 1⟩ .operand) ∧
    Grounds [⟨.number .zero, 0⟩, ⟨.symbol .rightParen, 1⟩]
      (.trailingTokens ⟨.symbol .rightParen, 1⟩) ∧
    Grounds [⟨.symbol .leftParen, 0⟩] (.unexpectedEnd .operand) ∧
    Grounds [⟨.name "abs", 0⟩, ⟨.symbol .leftParen, 3⟩, ⟨.symbol .rightParen, 4⟩]
      (.argumentCount .abs 0) :=
  ⟨parse_points_at_first_wrong (by cbv), parse_points_at_first_wrong (by cbv),
    parse_points_at_first_wrong (by cbv), parse_points_at_first_wrong parse_abs⟩

end Casework.Formula
