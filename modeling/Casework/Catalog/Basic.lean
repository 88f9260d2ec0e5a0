import Casework.Decision.RuleSet
import Casework.Formula.Basic
import Casework.Template.Basic

/-!
# Catalogs

A catalog is what one directory holds: templates, and the rule sets and formulas that their steps
name. A template is looked up in its highest version, rule sets and formulas by their first
occurrence.
-/

namespace Casework

structure Catalog where
  templates : List Template
  ruleSets : List RuleSet
  formulas : List Formula
deriving DecidableEq, Repr

namespace Catalog

def empty : Catalog := ⟨[], [], []⟩

/-- Of two templates the one with the higher version, or the later one. -/
def newer (best : Option Template) (t : Template) : Option Template :=
  match best with
  | some b => if b.version ≤ t.version then some t else some b
  | none => some t

def template? (c : Catalog) (id : String) : Option Template :=
  (c.templates.filter (·.id == id)).foldl newer none

def ruleSet? (c : Catalog) (id : String) : Option RuleSet := c.ruleSets.find? (·.id == id)

def formula? (c : Catalog) (id : String) : Option Formula := c.formulas.find? (·.id == id)

end Catalog

end Casework
