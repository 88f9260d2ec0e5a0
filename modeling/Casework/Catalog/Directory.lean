import Casework.Catalog.Document
import Casework.Catalog.Validate
import Casework.Files.Basic

/-!
# Catalogs in directories

A catalog directory has a folder for templates, one for rules and one for formulas; each may be
missing. The YAML files in them are read in the order of their names, and the catalog must be
consistent.
-/

namespace Casework

inductive LoadError where
  | noDirectory (path : String)
  | unreadable (path : String)
  | unreadableRules (path : String)
  | malformed (path : String)
  | malformedRules (path : String)
  | inconsistent (error : CatalogError)
deriving DecidableEq, Repr

def LoadError.message : LoadError → String
  | .noDirectory path => "Catalog directory not found: " ++ path
  | .unreadable path => "Failed to read " ++ path ++ ": no readable text"
  | .unreadableRules path => "Failed to read rule file " ++ path ++ ": no readable text"
  | .malformed path => "Failed to parse " ++ path ++ ": unexpected content"
  | .malformedRules path => "Failed to parse rule file " ++ path ++ ": unexpected content"
  | .inconsistent e => e.message

namespace CatalogDirectory

variable {m : Type → Type} [Monad m] {α : Type}

def isYaml (name : String) : Bool :=
  let e := FilePath.extension? name
  e == some "yaml" || e == some "yml"

/-- The paths of the YAML files in a folder, by name. -/
def yamlFiles (fs : FileSystem m) (folder : String) : ExceptT LoadError m (List String) := do
  if (← fs.kind? folder).isNone then return []
  match ← fs.names? folder with
  | none => throw (.unreadable folder)
  | some names =>
    return ((names.filter isYaml).mergeSort (· ≤ ·)).map (FilePath.join folder)

/-- What one kind of file holds, and what to say if it cannot be read or makes no sense. -/
structure FileFormat (α : Type) where
  ofText? : String → Option α
  unreadable : String → LoadError
  malformed : String → LoadError

def readFile (fs : FileSystem m) (format : FileFormat α) (path : String) :
    ExceptT LoadError m α := do
  match ← fs.text? path with
  | none => throw (format.unreadable path)
  | some text =>
    match format.ofText? text with
    | some a => return a
    | none => throw (format.malformed path)

def readFolder (fs : FileSystem m) (format : FileFormat α) (folder : String) :
    ExceptT LoadError m (List α) := do
  (← yamlFiles fs folder).mapM (readFile fs format)

def templateFiles : FileFormat Template := ⟨Template.ofYaml?, .unreadable, .malformed⟩

def ruleFiles : FileFormat (List RuleSet) :=
  ⟨RuleSet.listOfYaml?, .unreadableRules, .malformedRules⟩

def formulaFiles : FileFormat (List Formula) := ⟨Formula.listOfYaml?, .unreadable, .malformed⟩

def load (fs : FileSystem m) (path : String) : ExceptT LoadError m Catalog := do
  if (← fs.kind? path) ≠ some .folder then throw (.noDirectory path)
  let templates ← readFolder fs templateFiles (FilePath.join path "templates")
  let ruleSets ← readFolder fs ruleFiles (FilePath.join path "rules")
  let formulas ← readFolder fs formulaFiles (FilePath.join path "formulas")
  let catalog : Catalog := ⟨templates, ruleSets.flatten, formulas.flatten⟩
  match catalog.validate with
  | .ok () => return catalog
  | .error e => throw (.inconsistent e)

end CatalogDirectory

end Casework
