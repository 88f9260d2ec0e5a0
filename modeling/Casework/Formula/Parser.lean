import Casework.Formula.Error
import Casework.Read

/-!
# From tokens to trees

The grammar, lowest precedence first:

    sum     = product (('+' | '-') product)*
    product = signed (('*' | '/') signed)*
    signed  = ('-' | '+') signed | operand
    operand = number
            | '(' sum ')'
            | 'if' '(' sum comparison sum ')' 'then' '(' sum ')' 'else' '(' sum ')'
            | ('min' | 'max' | 'round' | 'abs') '(' [sum (',' sum)*] ')'

Each function reads one phrase from the front of the tokens. What it leaves is shorter than what it
was given, and that is why the descent ends.
-/

namespace Casework.Formula

def sumOp? : Token → Option BinaryOp
  | .symbol .plus => some .add
  | .symbol .minus => some .sub
  | _ => none

def productOp? : Token → Option BinaryOp
  | .symbol .star => some .mul
  | .symbol .slash => some .div
  | _ => none

def comparison? : Token → Option Comparison
  | .symbol .less => some .less
  | .symbol .greater => some .greater
  | .symbol .lessEqual => some .lessEqual
  | .symbol .greaterEqual => some .greaterEqual
  | .symbol .equal => some .equal
  | _ => none

def Keyword.function? : Keyword → Option Function
  | .minWord => some .min
  | .maxWord => some .max
  | .roundWord => some .round
  | .absWord => some .abs
  | _ => none

/-- The one token that `accept` takes. -/
def readToken {α : Type} (accept : Token → Option α) (expected : Expectation) :
    (ts : List Located) → Except FormulaError (Read α ts)
  | [] => .error (.unexpectedEnd expected)
  | t :: rest =>
    match accept t.token with
    | some a => .ok ⟨a, rest, length_lt_cons⟩
    | none => .error (.unexpectedToken t expected)

def readSymbol (s : Symbol) (expected : Expectation) (ts : List Located) :
    Except FormulaError (Read Unit ts) :=
  readToken (fun t => if t = .symbol s then some () else none) expected ts

def readKeyword (k : Keyword) (ts : List Located) : Except FormulaError (Read Unit ts) :=
  readToken (fun t => if t.keyword? = some k then some () else none) (.word k) ts

def foldLeft (first : Expr) (others : List (BinaryOp × Expr)) : Expr :=
  others.foldl (fun left (op, right) => .binary op left right) first

mutual

def readSum (ts : List Located) : Except FormulaError (Read Expr ts) := do
  let first ← readProduct ts
  let others ← readSummands first.rest
  return ⟨foldLeft first.value others.value, others.rest,
    Nat.lt_of_le_of_lt others.notLonger first.shorter⟩
termination_by (ts.length, 4)
decreasing_by
  · decreasing_tactic
  · have := first.shorter
    decreasing_tactic

def readSummands (ts : List Located) :
    Except FormulaError (ReadMany (List (BinaryOp × Expr)) ts) :=
  match ts with
  | [] => .ok ⟨[], [], Nat.le_refl _⟩
  | t :: us =>
    match sumOp? t.token with
    | none => .ok ⟨[], t :: us, Nat.le_refl _⟩
    | some op => do
      let next ← readProduct us
      let others ← readSummands next.rest
      return ⟨(op, next.value) :: others.value, others.rest,
        Nat.le_succ_of_le (Nat.le_of_lt (Nat.lt_of_le_of_lt others.notLonger next.shorter))⟩
termination_by (ts.length, 0)
decreasing_by
  · decreasing_tactic
  · have := next.shorter
    decreasing_tactic

def readProduct (ts : List Located) : Except FormulaError (Read Expr ts) := do
  let first ← readSigned ts
  let others ← readFactors first.rest
  return ⟨foldLeft first.value others.value, others.rest,
    Nat.lt_of_le_of_lt others.notLonger first.shorter⟩
termination_by (ts.length, 3)
decreasing_by
  · decreasing_tactic
  · have := first.shorter
    decreasing_tactic

def readFactors (ts : List Located) :
    Except FormulaError (ReadMany (List (BinaryOp × Expr)) ts) :=
  match ts with
  | [] => .ok ⟨[], [], Nat.le_refl _⟩
  | t :: us =>
    match productOp? t.token with
    | none => .ok ⟨[], t :: us, Nat.le_refl _⟩
    | some op => do
      let next ← readSigned us
      let others ← readFactors next.rest
      return ⟨(op, next.value) :: others.value, others.rest,
        Nat.le_succ_of_le (Nat.le_of_lt (Nat.lt_of_le_of_lt others.notLonger next.shorter))⟩
termination_by (ts.length, 0)
decreasing_by
  · decreasing_tactic
  · have := next.shorter
    decreasing_tactic

def readSigned (ts : List Located) : Except FormulaError (Read Expr ts) :=
  match ts with
  | [] => .error (.unexpectedEnd .operand)
  | t :: us =>
    match t.token with
    | .symbol .minus => return ((← readSigned us).map .negate).after length_le_cons
    | .symbol .plus => return (← readSigned us).after length_le_cons
    | .number value => .ok ⟨.number value, us, length_lt_cons⟩
    | .symbol .leftParen => do
      let inner ← readSum us
      let close ← readSymbol .rightParen .closingParen inner.rest
      return ⟨inner.value, close.rest, by
        have := inner.shorter
        have := close.shorter
        simp only [List.length_cons]
        omega⟩
    | .name text =>
      match Keyword.ofName? text with
      | some .ifWord => return (← readChoice us).after length_le_cons
      | some keyword =>
        match keyword.function? with
        | some function => do
          let arguments ← readArguments us
          if function.takes arguments.value.length then
            return (arguments.map (.call function)).after length_le_cons
          else throw (.argumentCount function arguments.value.length)
        | none => .error (.unexpectedToken t .operand)
      | none => .error (.unexpectedToken t .operand)
    | _ => .error (.unexpectedToken t .operand)
termination_by (ts.length, 2)

/-- A conditional behind its `if`. -/
def readChoice (ts : List Located) : Except FormulaError (Read Expr ts) := do
  let opening ← readSymbol .leftParen .parenAfterIf ts
  let left ← readSum opening.rest
  let test ← readToken comparison? .comparison left.rest
  let right ← readSum test.rest
  let closing ← readSymbol .rightParen .conditionEnd right.rest
  let thenWord ← readKeyword .thenWord closing.rest
  let thenBranch ← readParenthesized thenWord.rest
  let elseWord ← readKeyword .elseWord thenBranch.rest
  let elseBranch ← readParenthesized elseWord.rest
  return ⟨.choice test.value left.value right.value thenBranch.value elseBranch.value,
    elseBranch.rest, by
      have := opening.shorter
      have := left.shorter
      have := test.shorter
      have := right.shorter
      have := closing.shorter
      have := thenWord.shorter
      have := thenBranch.shorter
      have := elseWord.shorter
      have := elseBranch.shorter
      omega⟩
termination_by (ts.length, 1)
decreasing_by
  · have := opening.shorter
    exact Prod.Lex.left _ _ this
  · have := opening.shorter
    have := left.shorter
    have := test.shorter
    exact Prod.Lex.left _ _ (by omega)
  · have := opening.shorter
    have := left.shorter
    have := test.shorter
    have := right.shorter
    have := closing.shorter
    have := thenWord.shorter
    exact Prod.Lex.left _ _ (by omega)
  · have := opening.shorter
    have := left.shorter
    have := test.shorter
    have := right.shorter
    have := closing.shorter
    have := thenWord.shorter
    have := thenBranch.shorter
    have := elseWord.shorter
    exact Prod.Lex.left _ _ (by omega)

def readParenthesized (ts : List Located) : Except FormulaError (Read Expr ts) := do
  let opening ← readSymbol .leftParen .openingParen ts
  let inner ← readSum opening.rest
  let closing ← readSymbol .rightParen .closingParen inner.rest
  return ⟨inner.value, closing.rest, by
    have := opening.shorter
    have := inner.shorter
    have := closing.shorter
    omega⟩
termination_by (ts.length, 0)
decreasing_by
  have := opening.shorter
  exact Prod.Lex.left _ _ this

/-- The arguments of a call with their parentheses. -/
def readArguments (ts : List Located) : Except FormulaError (Read (List Expr) ts) := do
  let opening ← readSymbol .leftParen .argumentsStart ts
  match h : opening.rest with
  | [] => throw (.unexpectedEnd .operand)
  | t :: us =>
    if t.token = .symbol .rightParen then
      return ⟨[], us, by
        have := opening.shorter
        rw [h, List.length_cons] at this
        omega⟩
    else
      let arguments ← readArgumentList opening.rest
      return arguments.after (Nat.le_of_lt opening.shorter)
termination_by (ts.length, 0)
decreasing_by
  have := opening.shorter
  exact Prod.Lex.left _ _ this

/-- One or more arguments and the closing parenthesis. -/
def readArgumentList (ts : List Located) : Except FormulaError (Read (List Expr) ts) := do
  let first ← readSum ts
  match h : first.rest with
  | [] => throw (.unexpectedEnd .argumentEnd)
  | t :: us =>
    match t.token with
    | .symbol .rightParen =>
      return ⟨[first.value], us, by
        have := first.shorter
        rw [h, List.length_cons] at this
        omega⟩
    | .symbol .comma =>
      let others ← readArgumentList us
      return ⟨first.value :: others.value, others.rest, by
        have := first.shorter
        have := others.shorter
        simp only [h, List.length_cons] at *
        omega⟩
    | _ => throw (.unexpectedToken t .argumentEnd)
termination_by (ts.length, 5)
decreasing_by
  · exact Prod.Lex.right _ (by decide)
  · have := first.shorter
    rw [h, List.length_cons] at this
    exact Prod.Lex.left _ _ (by omega)

end

/-- The tree of a formula all of whose variables are bound. No token may be left over. -/
def parse (ts : List Located) : Except FormulaError Expr :=
  if ts.isEmpty then .error .empty
  else do
    let r ← readSum ts
    match r.rest with
    | [] => return r.value
    | t :: _ => throw (.trailingTokens t)

end Casework.Formula
