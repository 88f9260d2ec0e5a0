import Casework.Decimal.Text

/-!
# Tokens of the formula language

A formula is a row of numbers, names and symbols. Seven names are reserved: they are recognised in
any mixture of ASCII cases and never stand for a variable.
-/

namespace Casework.Formula

inductive Symbol where
  | plus | minus | star | slash | leftParen | rightParen | comma
  | less | greater | lessEqual | greaterEqual | equal
deriving DecidableEq, Repr

def Symbol.text : Symbol → String
  | .plus => "+"
  | .minus => "-"
  | .star => "*"
  | .slash => "/"
  | .leftParen => "("
  | .rightParen => ")"
  | .comma => ","
  | .less => "<"
  | .greater => ">"
  | .lessEqual => "<="
  | .greaterEqual => ">="
  | .equal => "=="

inductive Token where
  | number (value : Decimal)
  | name (text : String)
  | symbol (s : Symbol)
deriving DecidableEq, Repr

def Token.text : Token → String
  | .number value => value.render
  | .name text => text
  | .symbol s => s.text

/-- A token and the number of bytes before it in the formula. -/
structure Located where
  token : Token
  offset : Nat
deriving DecidableEq, Repr

inductive Keyword where
  | ifWord | thenWord | elseWord | minWord | maxWord | roundWord | absWord
deriving DecidableEq, Repr

/-- The text with the letters A to Z made small. -/
def lowerAscii (s : String) : List Char := s.toList.map Char.toLower

def Keyword.ofName? (name : String) : Option Keyword :=
  match lowerAscii name with
  | ['i', 'f'] => some .ifWord
  | ['t', 'h', 'e', 'n'] => some .thenWord
  | ['e', 'l', 's', 'e'] => some .elseWord
  | ['m', 'i', 'n'] => some .minWord
  | ['m', 'a', 'x'] => some .maxWord
  | ['r', 'o', 'u', 'n', 'd'] => some .roundWord
  | ['a', 'b', 's'] => some .absWord
  | _ => none

def Token.keyword? : Token → Option Keyword
  | .name text => Keyword.ofName? text
  | _ => none

end Casework.Formula
