import Casework.Proofs.Formula.Foresight
import Casework.Proofs.Formula.Parsing

/-!
# The readers of formulas look no further than they must

Each of them reads a phrase of the grammar without numbers of arguments, or fails at the first token
that it cannot take, or at a call; and nothing behind that token makes a difference. The induction
is on the number of tokens.
-/

namespace Casework.Formula

variable {us : List Located} {n : Nat}

/-! ### Rows -/

section Rows

variable {op? : Token → Option BinaryOp} {outer inner : Level}
  {operand : (ts : List Located) → Except FormulaError (Read Expr ts)}
  {row : (ts : List Located) → Except FormulaError (ReadMany (List (BinaryOp × Expr)) ts)}

/-- A phrase, whatever its tree. -/
def Phrase (level : Level) (_ : Expr) (ts : List Token) : Prop := Derivable level ts

theorem phrase_possible (level : Level) : ∃ e ts, Phrase level e ts :=
  ⟨.number .zero, _, derivable_number level .zero⟩

/-- What may stand behind a phrase to make a longer one. -/
def RowBehind (level : Level) (_ : List (BinaryOp × Expr)) (ts : List Token) : Prop :=
  ∀ us, Derivable level us → Derivable level (us ++ ts)

theorem rowBehind_nil (level : Level) (others : List (BinaryOp × Expr)) :
    RowBehind level others [] := by
  intro us hus
  rwa [List.append_nil]

theorem exists_op {ts : List Located} (h : ¬ NoOp op? ts) :
    ∃ t us op, ts = t :: us ∧ op? t.token = some op := by
  cases ts with
  | nil => exact absurd nofun h
  | cons t us =>
    cases hop : op? t.token with
    | none =>
      refine absurd (fun u hu => ?_) h
      cases hu
      exact hop
    | some op => exact ⟨t, us, op, rfl, hop⟩

theorem row_step (hrow : ∀ ts, row ts = rowFrom (fun t => op? t.token) operand row ts)
    (hgroup : ∀ {t op us vs}, op? t = some op → Derivable outer us → Derivable inner vs →
      Derivable outer (us ++ t :: vs))
    (hoperand : Foresees n (Phrase inner) (scan operand))
    (hothers : Foresees n (RowBehind outer) (scanMany row)) :
    Foresees (n + 1) (RowBehind outer) (scanMany row) := by
  refine ⟨hothers.possible, fun ts hts => ?_⟩
  by_cases hno : NoOp op? ts
  · refine .read [] ts (rowBehind_nil outer []) fun rest' hrest => ?_
    have hno' : NoOp op? rest' := fun t ht => hno t (hrest ▸ ht)
    exact scanMany_of_noOp hrow hno'
  · obtain ⟨t, us, op, rfl, hop⟩ := exists_op hno
    have hmore := (hoperand.bind fun next => hothers.bind fun others =>
      .pure ((op, next) :: others)).foretold us (Nat.lt_of_succ_lt_succ hts)
    refine hmore.cons (scanMany_cons hrow hop) ?_
    rintro others _ ⟨_, vs, _, rfl, hvs, _, ws, _, rfl, hws, _, rfl⟩ us hus
    rw [List.append_nil, ← List.cons_append, ← List.append_assoc]
    exact hws _ (hgroup hop hus hvs)

theorem row_foresees (hrow : ∀ ts, row ts = rowFrom (fun t => op? t.token) operand row ts)
    (hgroup : ∀ {t op us vs}, op? t = some op → Derivable outer us → Derivable inner vs →
      Derivable outer (us ++ t :: vs))
    (hoperand : Foresees n (Phrase inner) (scan operand)) :
    Foresees (n + 1) (RowBehind outer) (scanMany row) := by
  induction n with
  | zero =>
    exact row_step hrow hgroup hoperand (.zero ⟨[], [], rowBehind_nil outer []⟩)
  | succ n ih => exact row_step hrow hgroup hoperand (ih (hoperand.mono (Nat.le_succ n)))

end Rows

/-! ### Sums and products -/

theorem readProduct_foresees (hsigned : Foresees (n + 1) (Phrase .signed) (scan readSigned)) :
    Foresees (n + 1) (Phrase .product) (scan readProduct) := by
  have hrow : Foresees (n + 1) (RowBehind .product) (scanMany readFactors) := by
    refine row_foresees readFactors_eq ?_ (hsigned.mono (Nat.le_succ n))
    intro t op us vs hop hus hvs
    obtain ⟨hkind, rfl⟩ := productOp?_eq_some.1 hop
    exact .product hkind hus hvs
  rw [scan_readProduct]
  refine (hsigned.bind fun first => hrow.bind fun others => .pure (foldLeft first others)).imp ?_
  rintro _ _ ⟨_, us, _, rfl, hus, _, vs, _, rfl, hvs, _, rfl⟩
  rw [List.append_nil]
  exact hvs us (.productOfSigned hus)

theorem readSum_foresees (hproduct : Foresees (n + 1) (Phrase .product) (scan readProduct)) :
    Foresees (n + 1) (Phrase .sum) (scan readSum) := by
  have hrow : Foresees (n + 1) (RowBehind .sum) (scanMany readSummands) := by
    refine row_foresees readSummands_eq ?_ (hproduct.mono (Nat.le_succ n))
    intro t op us vs hop hus hvs
    obtain ⟨hkind, rfl⟩ := sumOp?_eq_some.1 hop
    exact .sum hkind hus hvs
  rw [scan_readSum]
  refine (hproduct.bind fun first => hrow.bind fun others => .pure (foldLeft first others)).imp ?_
  rintro _ _ ⟨_, us, _, rfl, hus, _, vs, _, rfl, hvs, _, rfl⟩
  rw [List.append_nil]
  exact hvs us (.sumOfProduct hus)

/-! ### Operands -/

section Operands

variable (hsum : Foresees n (Phrase .sum) (scan readSum))

include hsum

theorem readParenthesized_foresees :
    Foresees n (fun _ w => ∃ us, w = parenthesized us ∧ Derivable .sum us)
      (scan readParenthesized) := by
  rw [scan_readParenthesized]
  refine ((readSymbol_foresees n .leftParen .openingParen).bind fun _ => hsum.bind fun inner =>
    (readSymbol_foresees n .rightParen .closingParen).bind fun _ => .pure inner).imp ?_
  rintro _ _ ⟨_, _, _, rfl, rfl, _, us, _, rfl, hus, _, _, _, rfl, rfl, -, rfl⟩
  exact ⟨us, rfl, hus⟩

theorem readChoice_foresees :
    Foresees n (fun _ w => ∀ i, Keyword.ifWord.Spells i → Derivable .operand (i :: w))
      (scan readChoice) := by
  have hbranch := readParenthesized_foresees hsum
  have htest : Foresees n (fun _ w => ∃ test : Comparison, w = [.symbol test.symbol])
      (scan (readToken comparison? .comparison)) := by
    refine (readToken_foresees n .comparison ⟨.symbol .less, .less, rfl⟩).imp ?_
    rintro test _ ⟨t, rfl, ht⟩
    exact ⟨test, by rw [comparison?_eq_some.1 ht]⟩
  rw [scan_readChoice]
  refine ((readSymbol_foresees n .leftParen .parenAfterIf).bind fun _ => hsum.bind fun left =>
    htest.bind fun test => hsum.bind fun right =>
    (readSymbol_foresees n .rightParen .conditionEnd).bind fun _ =>
    (readKeyword_foresees n .thenWord).bind fun _ => hbranch.bind fun thenBranch =>
    (readKeyword_foresees n .elseWord).bind fun _ => hbranch.bind fun elseBranch =>
    .pure (Expr.choice test left right thenBranch elseBranch)).imp ?_
  rintro _ _ ⟨_, _, _, rfl, rfl, _, as, _, rfl, ha, _, _, _, rfl, ⟨test, rfl⟩, _, bs, _, rfl, hb,
    _, _, _, rfl, rfl, _, _, _, rfl, ⟨t, rfl, ht⟩, _, _, _, rfl, ⟨cs, rfl, hc⟩,
    _, _, _, rfl, ⟨l, rfl, hl⟩, _, _, _, rfl, ⟨ds, rfl, hd⟩, -, rfl⟩ i hi
  refine (congrArg (Derivable .operand) ?_).mp (Derivable.choice hi ht hl test ha hb hc hd)
  simp [parenthesized]

end Operands

/-! ### Arguments -/

/-- As many arguments as there are trees, and the closing parenthesis. -/
def ArgumentsEnd (arguments : List Expr) (ts : List Token) : Prop :=
  ∃ pieces, pieces.length = arguments.length ∧ (∀ us ∈ pieces, Derivable .sum us) ∧
    ts = commaRow pieces ++ [.symbol .rightParen]

theorem argumentsEnd_nil : ArgumentsEnd [] [.symbol .rightParen] :=
  ⟨[], rfl, List.forall_mem_nil _, rfl⟩

theorem argumentsEnd_singleton {first : Expr} {us : List Token} (h : Derivable .sum us) :
    ArgumentsEnd [first] (us ++ [.symbol .rightParen]) := by
  refine ⟨[us], rfl, fun vs hvs => ?_, ?_⟩
  · rw [List.mem_singleton.1 hvs]
    exact h
  · rw [commaRow_singleton]

theorem ArgumentsEnd.cons {first : Expr} {others : List Expr} {us ts : List Token}
    (hus : Derivable .sum us) (h : ArgumentsEnd others ts) (hne : others ≠ []) :
    ArgumentsEnd (first :: others) (us ++ .symbol .comma :: ts) := by
  obtain ⟨pieces, hlength, hpieces, rfl⟩ := h
  have hmore : pieces ≠ [] := by
    rintro rfl
    exact hne (List.length_eq_zero_iff.1 hlength.symm)
  refine ⟨us :: pieces, congrArg Nat.succ hlength, List.forall_mem_cons.2 ⟨hus, hpieces⟩, ?_⟩
  rw [commaRow_cons hmore, List.append_assoc]
  rfl

/-- One argument at least. -/
def ArgumentRowEnd (arguments : List Expr) (ts : List Token) : Prop :=
  ArgumentsEnd arguments ts ∧ arguments ≠ []

theorem argumentRowEnd_possible : ∃ arguments ts, ArgumentRowEnd arguments ts :=
  ⟨[.number .zero], _, argumentsEnd_singleton (derivable_number .sum .zero),
    List.cons_ne_nil _ _⟩

theorem argumentEnd_foresees (first : Expr)
    (hothers : Foresees n ArgumentRowEnd (scan readArgumentList)) :
    Foresees (n + 1) (fun arguments w => ∀ us, Derivable .sum us →
      ArgumentRowEnd arguments (us ++ w)) (argumentEnd first) := by
  have hclosing : ∀ us, Derivable .sum us → ArgumentRowEnd [first] (us ++ [.symbol .rightParen]) :=
    fun us hus => ⟨argumentsEnd_singleton hus, List.cons_ne_nil _ _⟩
  have hbegun : Begun (fun arguments w => ∀ us, Derivable .sum us →
      ArgumentRowEnd arguments (us ++ w)) [] := ⟨[first], [.symbol .rightParen], hclosing⟩
  refine ⟨⟨_, _, hclosing⟩, fun ts hts => ?_⟩
  cases ts with
  | nil => exact .ended .argumentEnd hbegun rfl
  | cons t us =>
    by_cases hright : t.token = .symbol .rightParen
    · refine .read [t] us (a := [first]) ?_ fun rest' _ => ?_
      · rw [List.map_singleton, hright]
        exact hclosing
      · rw [List.singleton_append, argumentEnd, hright]
    · by_cases hcomma : t.token = .symbol .comma
      · have hmore := (hothers.bind fun others => .pure (first :: others)).foretold us
          (Nat.lt_of_succ_lt_succ hts)
        refine hmore.cons (fun us' => ?_) ?_
        · rw [argumentEnd, hcomma]
        · rintro _ _ ⟨others, w, _, rfl, ⟨hw, hne⟩, rfl, rfl⟩ us hus
          rw [List.append_nil, hcomma]
          exact ⟨hw.cons hus hne, List.cons_ne_nil _ _⟩
      · refine .wrong .argumentEnd [] us hbegun fun after' => ?_
        rw [List.nil_append, argumentEnd]
        split
        · exact absurd ‹_› hright
        · exact absurd ‹_› hcomma
        · rfl

theorem readArgumentList_foresees (hsum : Foresees n (Phrase .sum) (scan readSum)) :
    Foresees n ArgumentRowEnd (scan readArgumentList) := by
  induction n with
  | zero => exact .zero argumentRowEnd_possible
  | succ n ih =>
    have hothers := ih (hsum.mono (Nat.le_succ n))
    rw [scan_readArgumentList]
    refine (hsum.bind fun first => argumentEnd_foresees first hothers).imp ?_
    rintro arguments _ ⟨_, us, w, rfl, hus, hw⟩
    exact hw us hus

theorem argumentsBehind_foresees (hsum : Foresees n (Phrase .sum) (scan readSum)) :
    Foresees n ArgumentsEnd argumentsBehind := by
  refine ⟨⟨_, _, argumentsEnd_nil⟩, fun ts hts => ?_⟩
  cases ts with
  | nil => exact .ended .operand ⟨_, _, argumentsEnd_nil⟩ rfl
  | cons t us =>
    by_cases hright : t.token = .symbol .rightParen
    · refine .read [t] us (a := []) ?_ fun rest' _ => ?_
      · rw [List.map_singleton, hright]
        exact argumentsEnd_nil
      · rw [List.singleton_append, argumentsBehind, if_pos hright]
    · have hlist : Foretold ArgumentsEnd (scan readArgumentList) (t :: us) :=
        ((readArgumentList_foresees hsum).foretold (t :: us) hts).imp fun _ _ h => h.1
      refine hlist.congr fun vs hvs => ?_
      obtain ⟨vs', rfl⟩ := List.head?_eq_some_iff.1 hvs
      rw [argumentsBehind, if_neg hright]

theorem readArguments_foresees (hsum : Foresees n (Phrase .sum) (scan readSum)) :
    Foresees n (fun arguments w => ∀ (f : Function) t, f.keyword.Spells t →
      IsCall f arguments.length (t :: w)) (scan readArguments) := by
  rw [scan_readArguments]
  refine ((readSymbol_foresees n .leftParen .argumentsStart).bind fun _ =>
    argumentsBehind_foresees hsum).imp ?_
  rintro arguments _ ⟨_, _, _, rfl, rfl, pieces, hlength, hpieces, rfl⟩ f t ht
  exact ⟨t, pieces, ht, hlength, hpieces, rfl⟩

/-! ### Signed operands -/

/-- Everything that is fewer than `n` tokens is foretold. -/
structure ForeseesBelow (n : Nat) : Prop where
  sum : Foresees n (Phrase .sum) (scan readSum)
  signed : Foresees n (Phrase .signed) (scan readSigned)

theorem call_foretold {k : Keyword} {f : Function} {t : Located}
    (hfunction : k.function? = some f) (hname : k.Spells t.token)
    (hsum : Foresees n (Phrase .sum) (scan readSum)) (hus : us.length < n) :
    Foretold (Phrase .signed) (scan readSigned) (t :: us) := by
  obtain rfl := function?_eq_some.1 hfunction
  let named : Scan (List Expr) := fun ts => scan readArguments ts.tail
  have hcall : Foretold (fun arguments w => IsCall f arguments.length w) named (t :: us) :=
    ((readArguments_foresees hsum).foretold us hus).cons (fun _ => rfl)
      fun _ _ h => h f t.token hname
  have hchecked : Foretold (Phrase .signed) (do
      let arguments ← named
      if f.takes arguments.length then return .call f arguments
      else throw (.argumentCount f arguments.length)) (t :: us) := by
    refine hcall.bind_of_read ?_ ?_
    · intro arguments front rest hsplit hphrase hstep
      rw [hsplit]
      by_cases htakes : f.takes arguments.length
      · refine .read front rest (a := .call f arguments) (.signedOfOperand hphrase.derivable) ?_
        intro rest' hrest
        rw [hstep rest' hrest, if_pos htakes]
        rfl
      · refine .miscounted [] front rest hphrase ?_
        rw [List.nil_append, hstep rest rfl, if_neg htakes]
        rfl
    · rintro w ⟨arguments, more, hphrase⟩
      exact ⟨.call f arguments, more, .signedOfOperand hphrase.derivable⟩
  refine hchecked.congr fun vs hvs => ?_
  obtain ⟨vs', rfl⟩ := List.head?_eq_some_iff.1 hvs
  rw [scan_readSigned_cons, signedBehind_call hname]
  rfl

theorem readSigned_foresees (hbelow : ForeseesBelow n) :
    Foresees (n + 1) (Phrase .signed) (scan readSigned) := by
  have hbegun : Begun (Phrase .signed) [] := phrase_possible .signed
  refine ⟨phrase_possible .signed, fun ts hts => ?_⟩
  cases ts with
  | nil =>
    refine .ended .operand hbegun ?_
    rw [scan, readSigned.eq_def]
    rfl
  | cons t us =>
    have hus : us.length < n := Nat.lt_of_succ_lt_succ hts
    have hwrong (h : signedBehind t = throw (.unexpectedToken t .operand)) :
        Foretold (Phrase .signed) (scan readSigned) (t :: us) := by
      refine .wrong .operand [] us hbegun fun after' => ?_
      rw [List.nil_append, scan_readSigned_cons, h]
      rfl
    have hbehind {p : Scan Expr} (h : signedBehind t = p) (us : List Located) :
        scan readSigned (t :: us) = p us := by
      rw [scan_readSigned_cons, h]
    cases ht : t.token with
    | number value =>
      refine .read [t] us (a := .number value) ?_ fun rest' _ => ?_
      · rw [List.map_singleton, ht]
        exact .signedOfOperand (.number value)
      · rw [List.singleton_append, scan_readSigned_cons, signedBehind, ht]
        rfl
    | symbol s =>
      cases s with
      | minus =>
        have hoperand := (hbelow.signed.bind fun operand =>
          .pure (Expr.negate operand)).foretold us hus
        refine hoperand.cons (hbehind (by rw [signedBehind, ht])) ?_
        rintro _ _ ⟨_, w, _, rfl, hw, rfl, rfl⟩
        rw [List.append_nil, ht]
        exact .minus hw
      | plus =>
        refine (hbelow.signed.foretold us hus).cons (hbehind (by rw [signedBehind, ht])) ?_
        intro _ w hw
        rw [ht]
        exact .plus hw
      | leftParen =>
        have hinner := (hbelow.sum.bind fun inner =>
          (readSymbol_foresees n .rightParen .closingParen).bind fun _ =>
          .pure inner).foretold us hus
        refine hinner.cons (hbehind (by rw [signedBehind, ht])) ?_
        rintro _ _ ⟨_, w, _, rfl, hw, _, _, _, rfl, rfl, rfl, rfl⟩
        rw [ht]
        exact .signedOfOperand (.parentheses hw)
      | _ => exact hwrong (by rw [signedBehind, ht])
    | name text =>
      cases hkeyword : Keyword.ofName? text with
      | none => exact hwrong (by simp only [signedBehind, ht, hkeyword])
      | some keyword =>
        have hspells : keyword.Spells t.token := by
          rw [ht]
          exact Keyword.spells_iff.2 hkeyword
        cases keyword with
        | ifWord =>
          refine ((readChoice_foresees hbelow.sum).foretold us hus).cons
            (hbehind (signedBehind_if hspells)) ?_
          intro _ w hw
          exact .signedOfOperand (hw t.token hspells)
        | thenWord | elseWord =>
          exact hwrong (by simp only [signedBehind, ht, hkeyword, Keyword.function?])
        | minWord | maxWord | roundWord | absWord =>
          exact call_foretold rfl hspells hbelow.sum hus

theorem foreseesBelow (n : Nat) : ForeseesBelow n := by
  induction n with
  | zero =>
    exact ⟨.zero (phrase_possible .sum), .zero (phrase_possible .signed)⟩
  | succ n ih =>
    have hsigned := readSigned_foresees ih
    exact ⟨readSum_foresees (readProduct_foresees hsigned), hsigned⟩

end Casework.Formula
