import Casework.Yaml.Expansion

/-!
# YAML documents

A text is read as the one document it holds. Without any, it is read as if it held an empty scalar.
-/

namespace Casework.Yaml

def leadingDirectives : List Token → List Directive
  | .directive d :: ts => d :: leadingDirectives ts
  | _ => []

def isVersion : Directive → Bool
  | .version .. => true
  | .tagHandle .. => false

/-- Versions 1.1 and 1.2 are the ones that are understood. -/
def isKnown : Directive → Bool
  | .version major minor => major == 1 && (minor == 1 || minor == 2)
  | .tagHandle .. => true

/-- The handles that directives define, and the standard ones. No handle is defined twice, and the
version is told once. -/
def handles? (ds : List Directive) : Option Handles :=
  let defined := ds.filterMap fun
    | .tagHandle handle meaning => some (handle, meaning)
    | .version .. => none
  if (ds.filter isVersion).length ≤ 1 ∧ ds.all isKnown ∧ (defined.map Prod.fst).Nodup then
    some (defined ++ standardHandles)
  else none

/-- Nothing but marks of the end follow. -/
def isEnd (ts : List Token) : Bool := ts.all (· == .documentEnd)

/-- What stands behind the mark of a document's start. -/
def marked? (handles : Handles) (ts : List Token) : Option Node :=
  if isEnd ts then some emptyScalar
  else (node? handles .entry [] ts).bind fun r => if isEnd r.rest then some r.value.1 else none

def Node.ofTokens? (ts : List Token) : Option Node := do
  let directives := leadingDirectives ts
  let handles ← handles? directives
  match ts.drop directives.length with
  | .documentStart :: rest => marked? handles rest
  | [] => if directives.isEmpty then some emptyScalar else none
  | rest => if directives.isEmpty && !isEnd rest then marked? handles rest else none

/-- The document that a text holds, as far as it is looked at. -/
def document? (shape : Shape) (text : String) : Option Document := do
  (← Node.ofTokens? (← tokens? text)).document? shape

end Casework.Yaml
