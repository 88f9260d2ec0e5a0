import Casework.Context.Basic
import Casework.Case.Record
import Casework.Decimal.Text
import Casework.Text.Blank

/-!
# Inputs of an evaluation

Rules and formulas look up texts by key. First come the facts of the case, then the entries of the
context: each gives its output to its name and, when the output is a JSON object, every text, number
and truth value in it to the path that leads there. What is written last to a key stays.
-/

namespace Casework

structure Inputs where
  values : Dictionary String

namespace Inputs

def path (above name : String) : String := above ++ "." ++ name

mutual

/-- What a JSON value writes under a path. -/
def leaves (above : String) : Json → List (String × String)
  | .text s => [(above, s)]
  | .int i => [(above, (Json.int i).compact)]
  | .real x => [(above, x.scientific)]
  | .bool b => [(above, if b then "true" else "false")]
  | .object members => memberLeaves above members
  | .null | .array _ => []

def memberLeaves (above : String) : List (String × Json) → List (String × String)
  | [] => []
  | (name, j) :: ms => leaves (path above name) j ++ memberLeaves above ms

end

/-- What an entry of the context writes. -/
def entryWrites (name output : String) : List (String × String) :=
  (name, output) ::
    match Json.ofText? output with
    | some (.object members) => memberLeaves name members
    | _ => []

def writes (data : Dictionary String) (context : Context) : List (String × String) :=
  data.entries ++ context.entries.flatMap fun e => entryWrites e.1 e.2

def build (data : Dictionary String) (context : Context) : Inputs :=
  ⟨Dictionary.ofList (writes data context)⟩

/-- The inputs of an execution, whose own snapshot of the context counts. -/
def ofExecution? (e : Execution) (data : Dictionary String) : Option Inputs :=
  match e.input with
  | some text => (Context.ofText? text).map (build data)
  | none => some (build data .empty)

def get? (i : Inputs) (key : String) : Option String := i.values.get? key

/-- The value as a number, blanks around it not counted. -/
def decimal? (i : Inputs) (key : String) : Option Decimal :=
  (i.get? key).bind fun s => Decimal.ofText? (Text.trimmed s)

/-- The keys whose values are numbers. -/
def decimals (i : Inputs) : List (String × Decimal) :=
  i.values.entries.filterMap fun e => (Decimal.ofText? (Text.trimmed e.2)).map (e.1, ·)

end Inputs

end Casework
