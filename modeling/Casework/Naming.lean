/-!
# Names of alternatives

A type whose values have fixed names can be written and read by them.
-/

namespace Casework

class Named (α : Type) where
  /-- What the values are called in general. -/
  noun : String
  all : List α
  name : α → String

/-- A text that is no name of the kind asked for. -/
structure UnknownName where
  noun : String
  text : String
deriving DecidableEq, Repr

def UnknownName.message (e : UnknownName) : String := "Unknown " ++ e.noun ++ ": " ++ e.text

namespace Named

variable {α : Type} [Named α]

def names (α : Type) [Named α] : List String := (all : List α).map name

def ofName? (text : String) : Option α := all.find? fun a => name a == text

def parse (text : String) : Except UnknownName α :=
  match ofName? text with
  | some a => .ok a
  | none => .error ⟨noun α, text⟩

end Named

end Casework
