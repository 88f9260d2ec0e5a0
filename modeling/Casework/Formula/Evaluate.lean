import Casework.Formula.Lexer
import Casework.Formula.Parser

/-!
# The value of a formula

`evaluate` reads a formula and works it out. A conditional works out only the branch it selects;
reading has by then looked at both. `variablesOf` reads a formula with every variable bound to zero
and tells the names it uses.
-/

namespace Casework.Formula

def BinaryOp.apply (op : BinaryOp) (a b : Decimal) : Except FormulaError Decimal :=
  match op with
  | .add => (a.add b).elim (.error .overflow) .ok
  | .sub => (a.sub b).elim (.error .overflow) .ok
  | .mul => (a.mul b).elim (.error .overflow) .ok
  | .div => if b.isZero then .error .divisionByZero else (a.div b).elim (.error .overflow) .ok

def Comparison.holds (test : Comparison) (a b : Decimal) : Bool :=
  match test with
  | .less => Decimal.compareValue a b == .lt
  | .greater => Decimal.compareValue a b == .gt
  | .lessEqual => Decimal.compareValue a b != .gt
  | .greaterEqual => Decimal.compareValue a b != .lt
  | .equal => Decimal.compareValue a b == .eq

def Function.apply (f : Function) (arguments : List Decimal) : Except FormulaError Decimal :=
  match f, arguments with
  | .min, a :: others => .ok (others.foldl Decimal.min a)
  | .max, a :: others => .ok (others.foldl Decimal.max a)
  | .abs, a :: _ => .ok a.abs
  | .round, [a] => .ok (a.round 0)
  | .round, [a, digits] =>
    match digits.digitCount? with
    | some n => .ok (a.round n)
    | none => .error (.invalidDigits digits)
  | f, arguments => .error (.argumentCount f arguments.length)

mutual

def Expr.eval : Expr → Except FormulaError Decimal
  | .number value => .ok value
  | .negate operand => return (← operand.eval).neg
  | .binary op left right => do
    let a ← left.eval
    let b ← right.eval
    op.apply a b
  | .call function arguments => do function.apply (← Expr.evalAll arguments)
  | .choice test left right thenBranch elseBranch => do
    let a ← left.eval
    let b ← right.eval
    if test.holds a b then thenBranch.eval else elseBranch.eval

/-- The values of the expressions, or the error of the first one that has none. -/
def Expr.evalAll : List Expr → Except FormulaError (List Decimal)
  | [] => .ok []
  | e :: es => do
    let a ← e.eval
    let others ← Expr.evalAll es
    return a :: others

end

def evaluate (formula : String) (value : String → Option Decimal) :
    Except FormulaError Decimal := do
  let tokens ← bindVariables value (← tokenize formula)
  (← parse tokens).eval

/-- The names that are not reserved, each at its first use. -/
def variableNames (ts : List Located) : List String :=
  (ts.filterMap fun t =>
    match t.token with
    | .name text => if (Keyword.ofName? text).isSome then none else some text
    | _ => none).eraseDups

/-- The variables of a formula that can be read. -/
def variablesOf (formula : String) : Except FormulaError (List String) := do
  let tokens ← tokenize formula
  let _ ← parse (← bindVariables (fun _ => some .zero) tokens)
  return variableNames tokens

end Casework.Formula
