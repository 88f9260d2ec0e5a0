import Casework.Proofs.Formula.Grammar
import Casework.Proofs.Formula.Reading

/-!
# Readers one behind another

What is left behind a reader is handed to the next. Without the proof that less is left than was
there the readers are computations with the tokens as their state, each of them made up of others.
-/

namespace Casework.Formula

variable {α β : Type} {ts us : List Located}

abbrev Scan (α : Type) : Type := StateT (List Located) (Except FormulaError) α

/-- The reader without the proof that it leaves less. -/
def scan (reader : (ts : List Located) → Except FormulaError (Read α ts)) : Scan α :=
  fun ts => (reader ts).map fun r => (r.value, r.rest)

def scanMany (reader : (ts : List Located) → Except FormulaError (ReadMany α ts)) : Scan α :=
  fun ts => (reader ts).map fun r => (r.value, r.rest)

theorem map_bind_eq {ρ γ : Type} {x : Except FormulaError ρ} {view : ρ → β × List Located}
    {p : Scan β} (hx : x.map view = p us) {k : ρ → Except FormulaError γ}
    {g : γ → α × List Located} {k' : β → Scan α}
    (hk : ∀ r, (k r).map g = k' (view r).1 (view r).2) :
    (x >>= k).map g = (p >>= k') us := by
  change _ = (p us >>= _)
  rw [← hx]
  cases x with
  | error err => rfl
  | ok r => exact hk r

theorem scan_after {reader : (ts : List Located) → Except FormulaError (Read α ts)}
    (h : us.length ≤ ts.length) :
    Except.map (fun r : Read α ts => (r.value, r.rest)) (do return (← reader us).after h) =
      scan reader us := by
  rw [scan]
  cases reader us with
  | error err => rfl
  | ok r => rfl

theorem scan_readSum : scan readSum = (do
    let first ← scan readProduct
    let others ← scanMany readSummands
    return foldLeft first others) := by
  funext ts
  rw [scan, readSum]
  exact map_bind_eq rfl fun _ => map_bind_eq rfl fun _ => rfl

theorem scan_readProduct : scan readProduct = (do
    let first ← scan readSigned
    let others ← scanMany readFactors
    return foldLeft first others) := by
  funext ts
  rw [scan, readProduct]
  exact map_bind_eq rfl fun _ => map_bind_eq rfl fun _ => rfl

theorem scan_readParenthesized : scan readParenthesized = (do
    scan (readSymbol .leftParen .openingParen)
    let inner ← scan readSum
    scan (readSymbol .rightParen .closingParen)
    return inner) := by
  funext ts
  rw [scan, readParenthesized]
  exact map_bind_eq rfl fun _ => map_bind_eq rfl fun _ => map_bind_eq rfl fun _ => rfl

theorem scan_readChoice : scan readChoice = (do
    scan (readSymbol .leftParen .parenAfterIf)
    let left ← scan readSum
    let test ← scan (readToken comparison? .comparison)
    let right ← scan readSum
    scan (readSymbol .rightParen .conditionEnd)
    scan (readKeyword .thenWord)
    let thenBranch ← scan readParenthesized
    scan (readKeyword .elseWord)
    let elseBranch ← scan readParenthesized
    return .choice test left right thenBranch elseBranch) := by
  funext ts
  rw [scan, readChoice]
  exact map_bind_eq rfl fun _ => map_bind_eq rfl fun _ => map_bind_eq rfl fun _ =>
    map_bind_eq rfl fun _ => map_bind_eq rfl fun _ => map_bind_eq rfl fun _ =>
    map_bind_eq rfl fun _ => map_bind_eq rfl fun _ => map_bind_eq rfl fun _ => rfl

/-- What is read of arguments behind the opening parenthesis. -/
def argumentsBehind : Scan (List Expr)
  | [] => .error (.unexpectedEnd .operand)
  | t :: us =>
    if t.token = .symbol .rightParen then .ok ([], us) else scan readArgumentList (t :: us)

theorem scan_readArguments : scan readArguments = (do
    scan (readSymbol .leftParen .argumentsStart)
    argumentsBehind) := by
  funext ts
  rw [scan, readArguments]
  refine map_bind_eq rfl fun opening => ?_
  obtain ⟨_, rest, _⟩ := opening
  cases rest with
  | nil => rfl
  | cons t us =>
    dsimp only [argumentsBehind]
    split
    · rfl
    · exact scan_after _

/-- What is read of arguments behind one of them. -/
def argumentEnd (first : Expr) : Scan (List Expr)
  | [] => .error (.unexpectedEnd .argumentEnd)
  | t :: us =>
    match t.token with
    | .symbol .rightParen => .ok ([first], us)
    | .symbol .comma => (do
      let others ← scan readArgumentList
      return first :: others : Scan (List Expr)) us
    | _ => .error (.unexpectedToken t .argumentEnd)

theorem scan_readArgumentList : scan readArgumentList = (do
    let first ← scan readSum
    argumentEnd first) := by
  funext ts
  rw [scan, readArgumentList]
  refine map_bind_eq rfl fun first => ?_
  obtain ⟨_, rest, _⟩ := first
  cases rest with
  | nil => rfl
  | cons t us =>
    dsimp only
    rw [argumentEnd]
    cases t.token with
    | symbol s =>
      cases s with
      | comma => exact map_bind_eq rfl fun _ => rfl
      | _ => rfl
    | _ => rfl

/-- What is read of a signed operand behind its first token. -/
def signedBehind (t : Located) : Scan Expr :=
  match t.token with
  | .symbol .minus => do
    let operand ← scan readSigned
    return .negate operand
  | .symbol .plus => scan readSigned
  | .number value => return .number value
  | .symbol .leftParen => do
    let inner ← scan readSum
    scan (readSymbol .rightParen .closingParen)
    return inner
  | .name text =>
    match Keyword.ofName? text with
    | some .ifWord => scan readChoice
    | some keyword =>
      match keyword.function? with
      | some function => do
        let arguments ← scan readArguments
        if function.takes arguments.length then return .call function arguments
        else throw (.argumentCount function arguments.length)
      | none => throw (.unexpectedToken t .operand)
    | none => throw (.unexpectedToken t .operand)
  | _ => throw (.unexpectedToken t .operand)

theorem scan_readSigned_cons (t : Located) (us : List Located) :
    scan readSigned (t :: us) = signedBehind t us := by
  rw [scan, readSigned.eq_def, signedBehind]
  dsimp only
  cases t.token with
  | number value => rfl
  | symbol s =>
    cases s with
    | minus => exact map_bind_eq rfl fun _ => rfl
    | plus => exact scan_after _
    | leftParen => exact map_bind_eq rfl fun _ => map_bind_eq rfl fun _ => rfl
    | _ => rfl
  | name text =>
    dsimp only
    cases Keyword.ofName? text with
    | none => rfl
    | some keyword =>
      cases keyword with
      | ifWord => exact scan_after _
      | thenWord | elseWord => rfl
      | _ =>
        refine map_bind_eq rfl fun arguments => ?_
        dsimp only
        split
        · rfl
        · rfl

theorem signedBehind_if {t : Located} (h : Keyword.ifWord.Spells t.token) :
    signedBehind t = scan readChoice := by
  obtain ⟨text, ht, hword⟩ := exists_name_of_keyword? (Keyword.spells_iff.1 h)
  simp only [signedBehind, ht, hword]

theorem signedBehind_call {f : Function} {t : Located} (h : f.keyword.Spells t.token) :
    signedBehind t = (do
      let arguments ← scan readArguments
      if f.takes arguments.length then return .call f arguments
      else throw (.argumentCount f arguments.length)) := by
  obtain ⟨text, ht, hword⟩ := exists_name_of_keyword? (Keyword.spells_iff.1 h)
  simp only [signedBehind, ht, hword]
  cases f <;> rfl

/-! ### Rows -/

section Rows

variable {op? : Token → Option BinaryOp}
  {operand : (ts : List Located) → Except FormulaError (Read Expr ts)}
  {row : (ts : List Located) → Except FormulaError (ReadMany (List (BinaryOp × Expr)) ts)}

theorem scanMany_of_noOp (hrow : ∀ ts, row ts = rowFrom (fun t => op? t.token) operand row ts)
    (h : NoOp op? ts) : scanMany row ts = .ok ([], ts) := by
  rw [scanMany, hrow]
  cases ts with
  | nil => rfl
  | cons t us =>
    have hop := h t rfl
    simp only [rowFrom, hop]
    rfl

theorem scanMany_cons (hrow : ∀ ts, row ts = rowFrom (fun t => op? t.token) operand row ts)
    {t : Located} {op : BinaryOp} (hop : op? t.token = some op) (us : List Located) :
    scanMany row (t :: us) = (do
      let next ← scan operand
      let others ← scanMany row
      return (op, next) :: others : Scan (List (BinaryOp × Expr))) us := by
  rw [scanMany, hrow, rowFrom]
  simp only [hop]
  exact map_bind_eq rfl fun _ => map_bind_eq rfl fun _ => rfl

end Rows

end Casework.Formula
