import Casework.Double.Basic

/-!
# Documents

A document is what a reader of JSON or YAML hands on before anything is known about its meaning.
It keeps the entries of a table in their order, repeated keys and all. A YAML scalar keeps its text,
because its kind may depend on what is asked of it.
-/

namespace Casework

/-- The kind that a tag gives to a scalar. -/
inductive ScalarTag where
  | bool | int | float | null | other
deriving DecidableEq, Repr

/-- How a scalar is written, as far as its kind may depend on that. -/
inductive ScalarStyle where
  | plain
  /-- A block of lines that are kept. -/
  | literal
  /-- Between quotes, or a block of lines that are joined. -/
  | other
deriving DecidableEq, Repr

inductive Document where
  | null
  | bool (value : Bool)
  /-- A whole number without a minus sign. -/
  | natural (value : Nat)
  /-- A whole number behind a minus sign. -/
  | negated (value : Nat)
  | real (value : Double)
  | text (value : String)
  /-- A YAML scalar that is plain or has a tag. -/
  | scalar (text : String) (style : ScalarStyle) (tag : Option ScalarTag)
  | list (items : List Document)
  | table (entries : List (Document × Document))
  /-- A document with a tag of its own, which names an alternative and says nothing to any other
  reader that knows what to expect. -/
  | tagged (name : String) (document : Document)
  /-- A number out of range, or an escape that names no character: no value, but no harm where
  nobody looks. -/
  | invalid
deriving Repr

end Casework
