import Casework.Formula.Token
import Casework.Formula.Expr

/-!
# What can be wrong with a formula
-/

namespace Casework.Formula

/-- What the grammar asks for at a place. -/
inductive Expectation where
  | operand
  | closingParen
  | parenAfterIf
  | comparison
  | conditionEnd
  | word (keyword : Keyword)
  | openingParen
  | argumentsStart
  | argumentEnd
deriving DecidableEq, Repr

def Keyword.text : Keyword → String
  | .ifWord => "if"
  | .thenWord => "then"
  | .elseWord => "else"
  | .minWord => "min"
  | .maxWord => "max"
  | .roundWord => "round"
  | .absWord => "abs"

def Expectation.text : Expectation → String
  | .operand => "a number, '(' or a function"
  | .closingParen => "')'"
  | .parenAfterIf => "'(' after if"
  | .comparison => "a comparison operator"
  | .conditionEnd => "')' closing the condition"
  | .word keyword => keyword.text
  | .openingParen => "'('"
  | .argumentsStart => "'(' before arguments"
  | .argumentEnd => "',' or ')'"

inductive FormulaError where
  | invalidCharacter (character : Char) (offset : Nat)
  | invalidNumber (literal : String) (offset : Nat)
  | unknownVariable (name : String)
  | unexpectedToken (found : Located) (expected : Expectation)
  | unexpectedEnd (expected : Expectation)
  | trailingTokens (found : Located)
  | argumentCount (function : Function) (found : Nat)
  | invalidDigits (digits : Decimal)
  | divisionByZero
  | overflow
  | empty
deriving DecidableEq, Repr

def FormulaError.message : FormulaError → String
  | .invalidCharacter character offset =>
    "invalid character '" ++ character.toString ++ "' at offset " ++ toString offset
  | .invalidNumber literal offset =>
    "invalid number literal '" ++ literal ++ "' at offset " ++ toString offset
  | .unknownVariable name => "unknown variable '" ++ name ++ "'"
  | .unexpectedToken found expected =>
    "unexpected token '" ++ found.token.text ++ "' at offset " ++ toString found.offset ++
      ", expected " ++ expected.text
  | .unexpectedEnd expected => "unexpected end of expression, expected " ++ expected.text
  | .trailingTokens found =>
    "unexpected trailing input '" ++ found.token.text ++ "' at offset " ++ toString found.offset
  | .argumentCount function found =>
    function.name ++ "() takes " ++ function.arity ++ " argument(s), got " ++ toString found
  | .invalidDigits digits =>
    "round() digit count must be a whole number from 0 to 28, got " ++ digits.render
  | .divisionByZero => "division by zero"
  | .overflow => "arithmetic overflow"
  | .empty => "expression is empty"

end Casework.Formula
