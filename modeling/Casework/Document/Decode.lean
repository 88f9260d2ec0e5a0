import Casework.Document.Scalar
import Casework.Dictionary

/-!
# Decoding documents

Readers of single kinds of value, and `fields?`, on which all records are built. A record is a table
in which unknown keys are passed over and no known key stands twice, or a list that holds the fields
in their order.
-/

namespace Casework.Document

mutual

/-- The document with every scalar decided on by its text and tag. -/
def resolve : Document → Document
  | .scalar s style tag => Scalar.value s style tag
  | .list items => .list (resolveAll items)
  | .table entries => .table (resolveEntries entries)
  | .tagged .. => .invalid
  | d => d

def resolveAll : List Document → List Document
  | [] => []
  | d :: ds => d.resolve :: resolveAll ds

def resolveEntries : List (Document × Document) → List (Document × Document)
  | [] => []
  | (k, v) :: es => (k.resolve, v.resolve) :: resolveEntries es

end

mutual

/-- Nothing in the document is invalid. -/
def valid : Document → Bool
  | .invalid => false
  | .list items => allValid items
  | .table entries => entriesValid entries
  | _ => true

def allValid : List Document → Bool
  | [] => true
  | d :: ds => d.valid && allValid ds

def entriesValid : List (Document × Document) → Bool
  | [] => true
  | (k, v) :: es => k.valid && v.valid && entriesValid es

end

/-- The document as far as it can be read without knowing what to expect. -/
def resolved? (d : Document) : Option Document :=
  if d.resolve.valid then some d.resolve else none

/-- The document without a tag of its own. -/
def untagged : Document → Document
  | .tagged _ d => d
  | d => d

def text? (d : Document) : Option String :=
  match d.untagged with
  | .text s | .scalar s _ _ => some s
  | _ => none

/-- The text of a scalar that may be of the kind: a plain one, or a literal one with its tag. -/
def scalarOf? (kind : ScalarTag) (d : Document) : Option String :=
  match d.untagged with
  | .scalar s .plain _ => some s
  | .scalar s .literal (some tag) => if tag = kind then some s else none
  | _ => none

/-- A whole number as it is, or the one that a scalar stands for. -/
def whole? (d : Document) : Option Document :=
  match d.scalarOf? .int with
  | some s => Scalar.int? s
  | none => some d

/-- A number from 0 to `high`. There is no minus sign, not even before zero. -/
def nat? (high : Nat) (d : Document) : Option Nat :=
  match d.whole? with
  | some (.natural n) => if n ≤ high then some n else none
  | _ => none

def int32? (d : Document) : Option Int :=
  match d.whole? with
  | some (.natural n) => if n < twoTo 31 then some n else none
  | some (.negated n) => if n ≤ twoTo 31 then some (-n) else none
  | _ => none

def nat32? (d : Document) : Option Nat := d.nat? (twoTo 32 - 1)

def bool? : Document → Option Bool
  | .bool b => some b
  | d => (d.scalarOf? .bool).bind Scalar.bool?

/-- A plain scalar without any text. -/
def isBlank (d : Document) : Bool :=
  match d.untagged with
  | .scalar s .plain _ => s.isEmpty
  | _ => false

def isNull : Document → Bool
  | .null => true
  | .scalar s .plain none => s.isEmpty || Scalar.isNull s
  | .scalar s .plain (some .null) => Scalar.isNull s
  | _ => false

/-- A plain scalar with the tag of null that is not null. -/
def contradictsNull : Document → Bool
  | .scalar s .plain (some .null) => !Scalar.isNull s
  | _ => false

/-- Null, or a value of the kind. -/
def optional? {α : Type} (decode : Document → Option α) (d : Document) : Option (Option α) :=
  if d.isNull then some none else if d.contradictsNull then none else (decode d).map some

def list? {α : Type} (decode : Document → Option α) (d : Document) : Option (List α) :=
  match d.untagged with
  | .list items => items.mapM decode
  | _ => if d.isBlank then some [] else none

/-- The value of a repeated key is the last one. -/
def dictionary? {α : Type} (decode : Document → Option α) : Document → Option (Dictionary α)
  | .table entries => do
    let known ← entries.mapM fun e => do return (← text? e.1, ← decode e.2)
    return Dictionary.ofList known
  | _ => none

/-- The name of an alternative that carries nothing: on its own, as the tag of nothing, or as the
only key of a table, where its number among the names will do. -/
def alternative? (names : List String) : Document → Option String
  | .text s | .scalar s _ _ => some s
  | .tagged name d => if d.isNull then some name else none
  | .table [(.text s, .null)] => some s
  | .table [(.natural n, .null)] => names[n]?
  | _ => none

/-- The field that a key stands for: by its name, or by its number. Other keys are no keys. -/
def fieldName? (names : List String) : Document → Option (Option String)
  | .natural n => some names[n]?
  | d => d.text?.map fun s => if s ∈ names then some s else none

/-- The fields of a record by name. -/
def fields? (names : List String) (d : Document) : Option (List (String × Document)) :=
  match d.untagged with
  | .table entries => do
    let named ← entries.mapM fun e => do return (← fieldName? names e.1, e.2)
    let known := named.filterMap fun e => e.1.map (·, e.2)
    if (known.map Prod.fst).Nodup then some known else none
  | .list items => if items.length ≤ names.length then some (names.zip items) else none
  | _ => if d.isBlank then some [] else none

/-- A field that must be there. -/
def required? {α : Type} (decode : Document → Option α) (name : String)
    (fields : List (String × Document)) : Option α :=
  (fields.lookup name).bind decode

/-- A field that may be left out. -/
def defaulted? {α : Type} (otherwise : α) (decode : Document → Option α) (name : String)
    (fields : List (String × Document)) : Option α :=
  match fields.lookup name with
  | some d => decode d
  | none => some otherwise

/-- A field that may be left out or null. -/
def optionalField? {α : Type} (decode : Document → Option α) (name : String)
    (fields : List (String × Document)) : Option (Option α) :=
  defaulted? none (optional? decode) name fields

end Casework.Document
