import Casework.Decimal.Basic

/-!
# Formula trees

Parentheses and unary plus leave no node.
-/

namespace Casework.Formula

inductive BinaryOp where
  | add | sub | mul | div
deriving DecidableEq, Repr

inductive Comparison where
  | less | greater | lessEqual | greaterEqual | equal
deriving DecidableEq, Repr

inductive Function where
  | min | max | round | abs
deriving DecidableEq, Repr

def Function.name : Function → String
  | .min => "min"
  | .max => "max"
  | .round => "round"
  | .abs => "abs"

/-- Whether a function takes so many arguments. -/
def Function.takes : Function → Nat → Bool
  | .min, n | .max, n => 2 ≤ n
  | .round, n => n == 1 || n == 2
  | .abs, n => n == 1

/-- The same in words. -/
def Function.arity : Function → String
  | .min | .max => "at least 2"
  | .round => "1 or 2"
  | .abs => "exactly 1"

inductive Expr where
  | number (value : Decimal)
  | negate (operand : Expr)
  | binary (op : BinaryOp) (left right : Expr)
  | call (function : Function) (arguments : List Expr)
  | choice (test : Comparison) (left right thenBranch elseBranch : Expr)
deriving Repr

end Casework.Formula
