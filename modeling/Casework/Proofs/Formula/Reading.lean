import Casework.Formula.Parser
import Casework.Proofs.Except

/-!
# What the readers of formulas read

For each reader the phrases that it reads, told by what the readers it calls read. What a reader
hands back carries the proof that something is left; `Reads` keeps the value and the rest only.
-/

namespace Casework.Formula

variable {α β : Type} {ts us rest : List Located} {e : Expr}

/-- The value is read, and the rest is left. -/
def Reads (x : Except FormulaError (Read α ts)) (a : α) (rest : List Located) : Prop :=
  ∃ h, x = .ok ⟨a, rest, h⟩

def ReadsMany (x : Except FormulaError (ReadMany α ts)) (a : α) (rest : List Located) : Prop :=
  ∃ h, x = .ok ⟨a, rest, h⟩

theorem Reads.shorter {x : Except FormulaError (Read α ts)} {a : α} (h : Reads x a rest) :
    rest.length < ts.length := by
  obtain ⟨h, -⟩ := h
  exact h

/-! ### One reader behind another -/

section Binding

variable {x : Except FormulaError (Read β us)} {f : Read β us → Except FormulaError (Read α ts)}
  {a : α}

theorem Reads.bind {b : β} {mid : List Located} (hx : Reads x b mid)
    (hf : ∀ h, Reads (f ⟨b, mid, h⟩) a rest) : Reads (x >>= f) a rest := by
  obtain ⟨h, rfl⟩ := hx
  exact hf h

theorem Reads.of_bind (h : Reads (x >>= f) a rest) :
    ∃ b mid h, Reads x b mid ∧ Reads (f ⟨b, mid, h⟩) a rest := by
  obtain ⟨hrest, h⟩ := h
  obtain ⟨⟨b, mid, hmid⟩, hx, h⟩ := bind_eq_ok.1 h
  exact ⟨b, mid, hmid, ⟨hmid, hx⟩, hrest, h⟩

theorem reads_pure {r : Read α ts} :
    Reads (pure r) a rest ↔ r.value = a ∧ r.rest = rest := by
  constructor
  · rintro ⟨_, h⟩
    cases h
    exact ⟨rfl, rfl⟩
  · rintro ⟨rfl, rfl⟩
    exact ⟨r.shorter, rfl⟩

end Binding

/-! ### Single tokens -/

theorem readToken_reads {accept : Token → Option α} {expected : Expectation} {a : α} :
    Reads (readToken accept expected ts) a rest ↔
      ∃ t, ts = t :: rest ∧ accept t.token = some a := by
  cases ts with
  | nil =>
    constructor
    · rintro ⟨_, h⟩
      cases h
    · rintro ⟨_, h, _⟩
      cases h
  | cons t us =>
    rw [readToken, Reads]
    constructor
    · rintro ⟨_, h⟩
      cases haccept : accept t.token with
      | none =>
        rw [haccept] at h
        cases h
      | some b =>
        rw [haccept] at h
        cases h
        exact ⟨t, rfl, haccept⟩
    · rintro ⟨_, hts, haccept⟩
      cases hts
      rw [haccept]
      exact ⟨length_lt_cons, rfl⟩

theorem readSymbol_reads {s : Symbol} {expected : Expectation} :
    Reads (readSymbol s expected ts) () rest ↔ ∃ t, ts = t :: rest ∧ t.token = .symbol s := by
  rw [readSymbol, readToken_reads]
  simp

theorem readKeyword_reads {k : Keyword} :
    Reads (readKeyword k ts) () rest ↔ ∃ t, ts = t :: rest ∧ t.token.keyword? = some k := by
  rw [readKeyword, readToken_reads]
  simp

/-! ### Sums and products -/

theorem readSum_reads : Reads (readSum ts) e rest ↔
    ∃ a mid others, Reads (readProduct ts) a mid ∧ ReadsMany (readSummands mid) others rest ∧
      e = foldLeft a others := by
  rw [readSum, Reads]
  constructor
  · rintro ⟨_, h⟩
    obtain ⟨⟨a, mid, hmid⟩, hfirst, h⟩ := bind_eq_ok.1 h
    obtain ⟨⟨others, rest, hrest⟩, hothers, h⟩ := bind_eq_ok.1 h
    cases h
    exact ⟨a, mid, others, ⟨hmid, hfirst⟩, ⟨hrest, hothers⟩, rfl⟩
  · rintro ⟨a, mid, others, ⟨hmid, hfirst⟩, ⟨hrest, hothers⟩, rfl⟩
    refine ⟨Nat.lt_of_le_of_lt hrest hmid, ?_⟩
    simp only [bind_eq_ok]
    exact ⟨_, hfirst, _, hothers, rfl⟩

theorem readProduct_reads : Reads (readProduct ts) e rest ↔
    ∃ a mid others, Reads (readSigned ts) a mid ∧ ReadsMany (readFactors mid) others rest ∧
      e = foldLeft a others := by
  rw [readProduct, Reads]
  constructor
  · rintro ⟨_, h⟩
    obtain ⟨⟨a, mid, hmid⟩, hfirst, h⟩ := bind_eq_ok.1 h
    obtain ⟨⟨others, rest, hrest⟩, hothers, h⟩ := bind_eq_ok.1 h
    cases h
    exact ⟨a, mid, others, ⟨hmid, hfirst⟩, ⟨hrest, hothers⟩, rfl⟩
  · rintro ⟨a, mid, others, ⟨hmid, hfirst⟩, ⟨hrest, hothers⟩, rfl⟩
    refine ⟨Nat.lt_of_le_of_lt hrest hmid, ?_⟩
    simp only [bind_eq_ok]
    exact ⟨_, hfirst, _, hothers, rfl⟩

/-- The front of the tokens is no operator of the kind. -/
def NoOp (op? : Token → Option BinaryOp) (ts : List Located) : Prop :=
  ∀ t ∈ ts.head?, op? t.token = none

/-- A row of operators, each with an operand behind it, as long as the operators last. -/
inductive Row (op? : Token → Option BinaryOp) (operand : List Located → Expr → List Located → Prop) :
    List Located → List (BinaryOp × Expr) → List Located → Prop
  | done {ts : List Located} (h : NoOp op? ts) : Row op? operand ts [] ts
  | more {t : Located} {us mid rest : List Located} {op : BinaryOp} {b : Expr}
      {others : List (BinaryOp × Expr)} (hop : op? t.token = some op) (hb : operand us b mid)
      (hothers : Row op? operand mid others rest) :
      Row op? operand (t :: us) ((op, b) :: others) rest

section Rows

variable {op? : Token → Option BinaryOp}
  {operand : (ts : List Located) → Except FormulaError (Read Expr ts)}
  {row : (ts : List Located) → Except FormulaError (ReadMany (List (BinaryOp × Expr)) ts)}

/-- How a row is read, given how the row behind its first operand is. -/
def rowFrom {τ : Type} (op? : τ → Option BinaryOp)
    (operand : (ts : List τ) → Except FormulaError (Read β ts))
    (row : (ts : List τ) → Except FormulaError (ReadMany (List (BinaryOp × β)) ts)) :
    (ts : List τ) → Except FormulaError (ReadMany (List (BinaryOp × β)) ts)
  | [] => .ok ⟨[], [], Nat.le_refl _⟩
  | t :: us =>
    match op? t with
    | none => .ok ⟨[], t :: us, Nat.le_refl _⟩
    | some op => do
      let next ← operand us
      let others ← row next.rest
      return ⟨(op, next.value) :: others.value, others.rest,
        Nat.le_succ_of_le (Nat.le_of_lt (Nat.lt_of_le_of_lt others.notLonger next.shorter))⟩

theorem readSummands_eq (ts : List Located) :
    readSummands ts = rowFrom (fun t => sumOp? t.token) readProduct readSummands ts := by
  rw [readSummands.eq_def]
  cases ts <;> rfl

theorem readFactors_eq (ts : List Located) :
    readFactors ts = rowFrom (fun t => productOp? t.token) readSigned readFactors ts := by
  rw [readFactors.eq_def]
  cases ts <;> rfl

theorem row_of_reads (hrow : ∀ ts, row ts = rowFrom (fun t => op? t.token) operand row ts)
    {others : List (BinaryOp × Expr)} (h : ReadsMany (row ts) others rest) :
    Row op? (fun us b mid => Reads (operand us) b mid) ts others rest := by
  induction others generalizing ts with
  | nil =>
    obtain ⟨_, h⟩ := h
    rw [hrow] at h
    cases ts with
    | nil =>
      cases h
      refine .done ?_
      intro t ht
      cases ht
    | cons t us =>
      rw [rowFrom] at h
      cases hop : op? t.token with
      | none =>
        rw [hop] at h
        cases h
        refine .done ?_
        intro u hu
        cases hu
        exact hop
      | some op =>
        rw [hop] at h
        obtain ⟨next, _, h⟩ := bind_eq_ok.1 h
        obtain ⟨others, _, h⟩ := bind_eq_ok.1 h
        cases h
  | cons other others ih =>
    obtain ⟨_, h⟩ := h
    rw [hrow] at h
    cases ts with
    | nil => cases h
    | cons t us =>
      rw [rowFrom] at h
      cases hop : op? t.token with
      | none =>
        rw [hop] at h
        cases h
      | some op =>
        rw [hop] at h
        obtain ⟨⟨b, mid, hmid⟩, hb, h⟩ := bind_eq_ok.1 h
        obtain ⟨⟨others, rest, hrest⟩, hothers, h⟩ := bind_eq_ok.1 h
        cases h
        exact .more hop ⟨hmid, hb⟩ (ih ⟨hrest, hothers⟩)

theorem reads_of_row (hrow : ∀ ts, row ts = rowFrom (fun t => op? t.token) operand row ts)
    {others : List (BinaryOp × Expr)}
    (h : Row op? (fun us b mid => Reads (operand us) b mid) ts others rest) :
    ReadsMany (row ts) others rest := by
  induction h with
  | @done ts h =>
    refine ⟨Nat.le_refl _, ?_⟩
    rw [hrow]
    cases ts with
    | nil => rfl
    | cons t us =>
      have hop := h t (by simp)
      simp only [rowFrom, hop]
  | @more t us mid rest op b others hop hb _ ih =>
    obtain ⟨hmid, hb⟩ := hb
    obtain ⟨hrest, hothers⟩ := ih
    refine ⟨by simp only [List.length_cons]; omega, ?_⟩
    rw [hrow]
    simp only [rowFrom, hop, bind_eq_ok]
    exact ⟨_, hb, _, hothers, rfl⟩

end Rows

theorem readSummands_reads {others : List (BinaryOp × Expr)} :
    ReadsMany (readSummands ts) others rest ↔
      Row sumOp? (fun us b mid => Reads (readProduct us) b mid) ts others rest :=
  ⟨row_of_reads readSummands_eq, reads_of_row readSummands_eq⟩

theorem readFactors_reads {others : List (BinaryOp × Expr)} :
    ReadsMany (readFactors ts) others rest ↔
      Row productOp? (fun us b mid => Reads (readSigned us) b mid) ts others rest :=
  ⟨row_of_reads readFactors_eq, reads_of_row readFactors_eq⟩

/-! ### Operands -/

theorem readParenthesized_reads : Reads (readParenthesized ts) e rest ↔
    ∃ t us u, ts = t :: us ∧ t.token = .symbol .leftParen ∧ Reads (readSum us) e (u :: rest) ∧
      u.token = .symbol .rightParen := by
  rw [readParenthesized]
  constructor
  · intro h
    obtain ⟨_, us, _, hopening, h⟩ := h.of_bind
    obtain ⟨a, mid, _, hinner, h⟩ := h.of_bind
    obtain ⟨_, _, _, hclosing, h⟩ := h.of_bind
    obtain ⟨rfl, rfl⟩ := reads_pure.1 h
    obtain ⟨t, rfl, ht⟩ := readSymbol_reads.1 hopening
    obtain ⟨u, rfl, hu⟩ := readSymbol_reads.1 hclosing
    exact ⟨t, us, u, rfl, ht, hinner, hu⟩
  · rintro ⟨t, us, u, rfl, ht, hinner, hu⟩
    refine (readSymbol_reads.2 ⟨t, rfl, ht⟩).bind fun _ => ?_
    refine hinner.bind fun _ => ?_
    refine (readSymbol_reads.2 ⟨u, rfl, hu⟩).bind fun _ => ?_
    exact reads_pure.2 ⟨rfl, rfl⟩

/-- The parts of a conditional behind its `if`. -/
inductive ChoiceParts : List Located → Expr → List Located → Prop
  | intro {t c u k l : Located} {ts₁ ts₂ ts₃ ts₄ rest : List Located} {test : Comparison}
      {a b thenBranch elseBranch : Expr} (ht : t.token = .symbol .leftParen)
      (ha : Reads (readSum ts₁) a (c :: ts₂)) (hc : comparison? c.token = some test)
      (hb : Reads (readSum ts₂) b (u :: k :: ts₃)) (hu : u.token = .symbol .rightParen)
      (hk : k.token.keyword? = some .thenWord)
      (hthen : Reads (readParenthesized ts₃) thenBranch (l :: ts₄))
      (hl : l.token.keyword? = some .elseWord)
      (helse : Reads (readParenthesized ts₄) elseBranch rest) :
      ChoiceParts (t :: ts₁) (.choice test a b thenBranch elseBranch) rest

theorem readChoice_reads : Reads (readChoice ts) e rest ↔ ChoiceParts ts e rest := by
  rw [readChoice]
  constructor
  · intro h
    obtain ⟨_, _, _, hopening, h⟩ := h.of_bind
    obtain ⟨a, _, _, ha, h⟩ := h.of_bind
    obtain ⟨test, _, _, htest, h⟩ := h.of_bind
    obtain ⟨b, _, _, hb, h⟩ := h.of_bind
    obtain ⟨_, _, _, hclosing, h⟩ := h.of_bind
    obtain ⟨_, _, _, hthenWord, h⟩ := h.of_bind
    obtain ⟨thenBranch, _, _, hthen, h⟩ := h.of_bind
    obtain ⟨_, _, _, helseWord, h⟩ := h.of_bind
    obtain ⟨elseBranch, _, _, helse, h⟩ := h.of_bind
    obtain ⟨rfl, rfl⟩ := reads_pure.1 h
    obtain ⟨t, rfl, ht⟩ := readSymbol_reads.1 hopening
    obtain ⟨c, rfl, hc⟩ := readToken_reads.1 htest
    obtain ⟨u, rfl, hu⟩ := readSymbol_reads.1 hclosing
    obtain ⟨k, rfl, hk⟩ := readKeyword_reads.1 hthenWord
    obtain ⟨l, rfl, hl⟩ := readKeyword_reads.1 helseWord
    exact .intro ht ha hc hb hu hk hthen hl helse
  · rintro ⟨ht, ha, hc, hb, hu, hk, hthen, hl, helse⟩
    refine (readSymbol_reads.2 ⟨_, rfl, ht⟩).bind fun _ => ?_
    refine ha.bind fun _ => ?_
    refine (readToken_reads.2 ⟨_, rfl, hc⟩).bind fun _ => ?_
    refine hb.bind fun _ => ?_
    refine (readSymbol_reads.2 ⟨_, rfl, hu⟩).bind fun _ => ?_
    refine (readKeyword_reads.2 ⟨_, rfl, hk⟩).bind fun _ => ?_
    refine hthen.bind fun _ => ?_
    refine (readKeyword_reads.2 ⟨_, rfl, hl⟩).bind fun _ => ?_
    refine helse.bind fun _ => ?_
    exact reads_pure.2 ⟨rfl, rfl⟩

/-- Arguments, each with what ends it behind: a comma, or the closing parenthesis. -/
inductive ArgumentRow : List Located → List Expr → List Located → Prop
  | last {ts rest : List Located} {a : Expr} {t : Located} (ha : Reads (readSum ts) a (t :: rest))
      (ht : t.token = .symbol .rightParen) : ArgumentRow ts [a] rest
  | more {ts us rest : List Located} {a : Expr} {others : List Expr} {t : Located}
      (ha : Reads (readSum ts) a (t :: us)) (ht : t.token = .symbol .comma)
      (hothers : ArgumentRow us others rest) : ArgumentRow ts (a :: others) rest

theorem argumentList_of_reads {arguments : List Expr}
    (h : Reads (readArgumentList ts) arguments rest) :
    ∃ a t us, Reads (readSum ts) a (t :: us) ∧
      ((t.token = .symbol .rightParen ∧ arguments = [a] ∧ rest = us) ∨
        (t.token = .symbol .comma ∧ ∃ others, arguments = a :: others ∧
          Reads (readArgumentList us) others rest)) := by
  rw [readArgumentList] at h
  obtain ⟨a, mid, _, ha, h⟩ := h.of_bind
  cases mid with
  | nil =>
    obtain ⟨_, h⟩ := h
    cases h
  | cons t us =>
    refine ⟨a, t, us, ha, ?_⟩
    simp only at h
    split at h
    · rename_i ht
      obtain ⟨rfl, rfl⟩ := reads_pure.1 h
      exact .inl ⟨ht, rfl, rfl⟩
    · rename_i ht
      obtain ⟨others, _, _, hothers, h⟩ := h.of_bind
      obtain ⟨rfl, rfl⟩ := reads_pure.1 h
      exact .inr ⟨ht, others, rfl, hothers⟩
    · obtain ⟨_, h⟩ := h
      cases h

theorem readArgumentList_reads {arguments : List Expr} :
    Reads (readArgumentList ts) arguments rest ↔ ArgumentRow ts arguments rest := by
  constructor
  · intro h
    induction arguments generalizing ts with
    | nil =>
      obtain ⟨a, t, us, ha, ⟨_, h, _⟩ | ⟨_, others, h, _⟩⟩ := argumentList_of_reads h
      · cases h
      · cases h
    | cons a others ih =>
      obtain ⟨a, t, us, ha, ⟨ht, h, rfl⟩ | ⟨ht, others, h, hothers⟩⟩ := argumentList_of_reads h
      · cases h
        exact .last ha ht
      · cases h
        exact .more ha ht (ih hothers)
  · intro h
    induction h with
    | @last ts rest a t ha ht =>
      rw [readArgumentList]
      refine ha.bind fun _ => ?_
      simp only [ht]
      exact reads_pure.2 ⟨rfl, rfl⟩
    | @more ts us rest a others t ha ht _ ih =>
      rw [readArgumentList]
      refine ha.bind fun _ => ?_
      simp only [ht]
      refine ih.bind fun _ => ?_
      exact reads_pure.2 ⟨rfl, rfl⟩

/-- Arguments in parentheses, which there are none of or a row. -/
theorem readArguments_reads {arguments : List Expr} :
    Reads (readArguments ts) arguments rest ↔ ∃ t u us, ts = t :: u :: us ∧
      t.token = .symbol .leftParen ∧
      if u.token = .symbol .rightParen then arguments = [] ∧ rest = us
      else ArgumentRow (u :: us) arguments rest := by
  rw [readArguments]
  constructor
  · intro h
    obtain ⟨_, mid, _, hopening, h⟩ := h.of_bind
    obtain ⟨t, rfl, ht⟩ := readSymbol_reads.1 hopening
    cases mid with
    | nil =>
      obtain ⟨_, h⟩ := h
      cases h
    | cons u us =>
      refine ⟨t, u, us, rfl, ht, ?_⟩
      simp only at h
      by_cases hu : u.token = .symbol .rightParen
      · rw [if_pos hu] at h ⊢
        obtain ⟨rfl, rfl⟩ := reads_pure.1 h
        exact ⟨rfl, rfl⟩
      · rw [if_neg hu] at h ⊢
        obtain ⟨others, _, _, hothers, h⟩ := h.of_bind
        obtain ⟨rfl, rfl⟩ := reads_pure.1 h
        exact readArgumentList_reads.1 hothers
  · rintro ⟨t, u, us, rfl, ht, h⟩
    refine (readSymbol_reads.2 ⟨t, rfl, ht⟩).bind fun _ => ?_
    simp only
    by_cases hu : u.token = .symbol .rightParen
    · rw [if_pos hu] at h ⊢
      exact reads_pure.2 ⟨h.1.symm, h.2.symm⟩
    · rw [if_neg hu] at h ⊢
      refine (readArgumentList_reads.2 h).bind fun _ => ?_
      exact reads_pure.2 ⟨rfl, rfl⟩

/-- What a signed operand is, by its first token. -/
def SignedBehind (us : List Located) (e : Expr) (rest : List Located) : Token → Prop
  | .symbol .minus => ∃ a, Reads (readSigned us) a rest ∧ e = .negate a
  | .symbol .plus => Reads (readSigned us) e rest
  | .symbol .leftParen =>
    ∃ u, Reads (readSum us) e (u :: rest) ∧ u.token = .symbol .rightParen
  | .symbol _ => False
  | .number value => e = .number value ∧ rest = us
  | .name text =>
    match Keyword.ofName? text with
    | none => False
    | some .ifWord => Reads (readChoice us) e rest
    | some keyword => ∃ function, keyword.function? = some function ∧
      ∃ arguments, Reads (readArguments us) arguments rest ∧ function.takes arguments.length ∧
        e = .call function arguments

/-- A call behind the name of its function. -/
theorem call_reads {t : Located} {function : Function} :
    Reads (do
      let arguments ← readArguments us
      if function.takes arguments.value.length then
        return (arguments.map (Expr.call function)).after (length_le_cons (a := t))
      else throw (.argumentCount function arguments.value.length)) e rest ↔
      ∃ arguments, Reads (readArguments us) arguments rest ∧ function.takes arguments.length ∧
        e = .call function arguments := by
  constructor
  · intro h
    obtain ⟨arguments, _, _, harguments, h⟩ := h.of_bind
    simp only at h
    by_cases htakes : function.takes arguments.length
    · rw [if_pos htakes] at h
      obtain ⟨rfl, rfl⟩ := reads_pure.1 h
      exact ⟨arguments, harguments, htakes, rfl⟩
    · rw [if_neg htakes] at h
      obtain ⟨_, h⟩ := h
      cases h
  · rintro ⟨arguments, harguments, htakes, rfl⟩
    refine harguments.bind fun _ => ?_
    simp only
    rw [if_pos htakes]
    exact reads_pure.2 ⟨rfl, rfl⟩

theorem readSigned_reads {t : Located} :
    Reads (readSigned (t :: us)) e rest ↔ SignedBehind us e rest t.token := by
  cases ht : t.token with
  | number value =>
    rw [readSigned.eq_def]
    simp only [ht, SignedBehind]
    constructor
    · rintro ⟨_, h⟩
      cases h
      exact ⟨rfl, rfl⟩
    · rintro ⟨rfl, rfl⟩
      exact ⟨length_lt_cons, rfl⟩
  | symbol s =>
    rw [readSigned.eq_def]
    simp only [ht]
    cases s with
    | minus =>
      simp only [SignedBehind]
      constructor
      · intro h
        obtain ⟨a, _, _, ha, h⟩ := h.of_bind
        obtain ⟨rfl, rfl⟩ := reads_pure.1 h
        exact ⟨a, ha, rfl⟩
      · rintro ⟨a, ha, rfl⟩
        refine ha.bind fun _ => ?_
        exact reads_pure.2 ⟨rfl, rfl⟩
    | plus =>
      simp only [SignedBehind]
      constructor
      · intro h
        obtain ⟨a, _, _, ha, h⟩ := h.of_bind
        obtain ⟨rfl, rfl⟩ := reads_pure.1 h
        exact ha
      · intro ha
        refine ha.bind fun _ => ?_
        exact reads_pure.2 ⟨rfl, rfl⟩
    | leftParen =>
      simp only [SignedBehind]
      constructor
      · intro h
        obtain ⟨a, _, _, hinner, h⟩ := h.of_bind
        obtain ⟨_, _, _, hclosing, h⟩ := h.of_bind
        obtain ⟨rfl, rfl⟩ := reads_pure.1 h
        obtain ⟨u, rfl, hu⟩ := readSymbol_reads.1 hclosing
        exact ⟨u, hinner, hu⟩
      · rintro ⟨u, hinner, hu⟩
        refine hinner.bind fun _ => ?_
        refine (readSymbol_reads.2 ⟨u, rfl, hu⟩).bind fun _ => ?_
        exact reads_pure.2 ⟨rfl, rfl⟩
    | star | slash | rightParen | comma | less | greater | lessEqual | greaterEqual | equal =>
      simp only [SignedBehind, iff_false]
      rintro ⟨_, h⟩
      cases h
  | name text =>
    rw [readSigned.eq_def]
    simp only [ht, SignedBehind]
    cases hkeyword : Keyword.ofName? text with
    | none =>
      simp only [iff_false]
      rintro ⟨_, h⟩
      cases h
    | some keyword =>
      cases keyword with
      | ifWord =>
        constructor
        · intro h
          obtain ⟨a, _, _, ha, h⟩ := h.of_bind
          obtain ⟨rfl, rfl⟩ := reads_pure.1 h
          exact ha
        · intro ha
          refine ha.bind fun _ => ?_
          exact reads_pure.2 ⟨rfl, rfl⟩
      | thenWord | elseWord =>
        simp only [Keyword.function?, reduceCtorEq, false_and, exists_false, iff_false]
        rintro ⟨_, h⟩
        cases h
      | minWord | maxWord | roundWord | absWord =>
        simp only [Keyword.function?, Option.some.injEq, exists_eq_left']
        exact call_reads

theorem exists_name_of_keyword? {t : Token} {keyword : Keyword} (h : t.keyword? = some keyword) :
    ∃ text, t = .name text ∧ Keyword.ofName? text = some keyword := by
  cases t with
  | name text => exact ⟨text, rfl, h⟩
  | number value => cases h
  | symbol s => cases h

theorem readSigned_if {t : Located} (ht : t.token.keyword? = some .ifWord) :
    Reads (readSigned (t :: us)) e rest ↔ Reads (readChoice us) e rest := by
  obtain ⟨text, htext, hkeyword⟩ := exists_name_of_keyword? ht
  rw [readSigned_reads, htext, SignedBehind, hkeyword]

theorem readSigned_call {t : Located} {function : Function} {keyword : Keyword}
    (ht : t.token.keyword? = some keyword) (hfunction : keyword.function? = some function) :
    Reads (readSigned (t :: us)) e rest ↔
      ∃ arguments, Reads (readArguments us) arguments rest ∧ function.takes arguments.length ∧
        e = .call function arguments := by
  obtain ⟨text, htext, hkeyword⟩ := exists_name_of_keyword? ht
  rw [readSigned_reads, htext, SignedBehind, hkeyword]
  cases keyword with
  | ifWord | thenWord | elseWord => cases hfunction
  | minWord | maxWord | roundWord | absWord =>
    cases hfunction
    simp only [Keyword.function?, Option.some.injEq, exists_eq_left']

end Casework.Formula
