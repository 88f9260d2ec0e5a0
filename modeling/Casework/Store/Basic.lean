import Casework.Case.Record
import Casework.Decision.RuleSet
import Casework.Formula.Basic
import Casework.Register
import Casework.Task.Basic

/-!
# Stores

A store keeps templates, case records, rule sets, formulas and tasks. All of them can be replaced,
except a version of a template that is published.
-/

namespace Casework

structure Store where
  templates : Register fun t : Template => (t.id, t.version)
  records : Register CaseRecord.id
  ruleSets : Register RuleSet.id
  formulas : Register Formula.id
  tasks : Register CaseTask.id

/-- A published version was to be changed. -/
structure PublishedTemplate where
  id : String
  version : Nat
deriving DecidableEq, Repr

def PublishedTemplate.message (e : PublishedTemplate) : String :=
  "Template " ++ e.id ++ " v" ++ toString e.version ++ " is published and cannot be changed"

namespace Store

def empty : Store := ⟨.empty, .empty, .empty, .empty, .empty⟩

def template? (s : Store) (id : String) (version : Nat) : Option Template :=
  s.templates.find? (id, version)

/-- A version that is published stays as it is, but may be saved again. -/
def saveTemplate (s : Store) (t : Template) : Except PublishedTemplate Store :=
  let kept := (s.template? t.id t.version).any fun old => old.isPublished && old ≠ t
  if kept then .error ⟨t.id, t.version⟩ else .ok { s with templates := s.templates.insert t }

/-- The published versions of a template. -/
def publishedVersions (s : Store) (id : String) : List Nat :=
  (s.templates.entries.filter fun t => t.id == id && t.isPublished).map (·.version)

def latestVersion? (s : Store) (id : String) : Option Nat := (s.publishedVersions id).max?

def record? (s : Store) (id : Id) : Option CaseRecord := s.records.find? id

def status? (s : Store) (id : Id) : Option CaseStatus := (s.record? id).map (·.status)

def saveRecord (s : Store) (r : CaseRecord) : Store := { s with records := s.records.insert r }

def ruleSet? (s : Store) (id : String) : Option RuleSet := s.ruleSets.find? id

def saveRuleSet (s : Store) (r : RuleSet) : Store := { s with ruleSets := s.ruleSets.insert r }

def formula? (s : Store) (id : String) : Option Formula := s.formulas.find? id

def saveFormula (s : Store) (f : Formula) : Store := { s with formulas := s.formulas.insert f }

def task? (s : Store) (id : Id) : Option CaseTask := s.tasks.find? id

def saveTask (s : Store) (t : CaseTask) : Store := { s with tasks := s.tasks.insert t }

/-- The tasks of a case, the oldest first. -/
def tasksOf (s : Store) (recordId : Id) : List CaseTask :=
  (s.tasks.entries.filter (·.recordId == recordId)).mergeSort fun a b => a.createdAt ≤ b.createdAt

end Store

end Casework
