import Casework.Document.Decode

/-!
# JSON values

The members of an object have an order. In a value that has been read it is the ascending order of
their names, each name standing once: `ofTable` brings members into that form. `ofDocument?` takes
over what a document says, as long as its nesting stays within 127 levels.
-/

namespace Casework

inductive Json where
  | null
  | bool (value : Bool)
  | int (value : Int)
  | real (value : Double)
  | text (value : String)
  | array (items : List Json)
  | object (members : List (String × Json))
deriving Repr

namespace Json

def maxDepth : Nat := 127

instance : Inhabited Json := ⟨.null⟩

/-- The object with these members; of several with one name the last one stays. -/
def ofTable (members : List (String × Json)) : Json := .object (Dictionary.ofList members).entries

/-- A fraction that is no number becomes null. -/
def ofDouble (x : Double) : Json := if x.isFinite then .real x else .null

def ofScalar? (s : String) (style : ScalarStyle) (tag : Option ScalarTag) : Option Json :=
  match Scalar.value s style tag with
  | .null => some .null
  | .bool b => some (.bool b)
  | .natural n => some (.int n)
  | .negated n => some (.int (-n))
  | .real x => some (ofDouble x)
  | .text s => some (.text s)
  | _ => none

mutual

def ofDocument? : Nat → Document → Option Json
  | _, .null => some .null
  | _, .bool b => some (.bool b)
  | _, .natural n => some (.int n)
  | _, .negated n => some (.int (-n))
  | _, .real x => some (ofDouble x)
  | _, .text s => some (.text s)
  | _, .scalar s style tag => ofScalar? s style tag
  | depth, .list items =>
    match depth with
    | 0 => none
    | depth + 1 => return .array (← ofDocuments? depth items)
  | depth, .table entries =>
    match depth with
    | 0 => none
    | depth + 1 => return ofTable (← ofEntries? depth entries)
  | _, .tagged .. | _, .invalid => none

def ofDocuments? : Nat → List Document → Option (List Json)
  | _, [] => some []
  | depth, d :: ds => return (← ofDocument? depth d) :: (← ofDocuments? depth ds)

def ofEntries? : Nat → List (Document × Document) → Option (List (String × Json))
  | _, [] => some []
  | depth, (k, v) :: es => do
    let name ← k.text?
    let value ← ofDocument? depth v
    return (name, value) :: (← ofEntries? depth es)

end

mutual

/-- The document that says the same. -/
def toDocument : Json → Document
  | .null => .null
  | .bool b => .bool b
  | .int i => if i < 0 then .negated i.natAbs else .natural i.natAbs
  | .real x => .real x
  | .text s => .text s
  | .array items => .list (toDocuments items)
  | .object members => .table (toEntries members)

def toDocuments : List Json → List Document
  | [] => []
  | j :: js => j.toDocument :: toDocuments js

def toEntries : List (String × Json) → List (Document × Document)
  | [] => []
  | (name, j) :: ms => (.text name, j.toDocument) :: toEntries ms

end

end Json

end Casework
