import Casework.Catalog.Basic
import Casework.World

/-!
# Installing a catalog

Templates are published on their way into the store. A version that the store has published already
stays as it is; rule sets and formulas replace those of the same id.
-/

namespace Casework

inductive InstallError where
  | invalidTemplate (error : TemplateError)
  | published (error : PublishedTemplate)
deriving DecidableEq, Repr

def InstallError.message : InstallError → String
  | .invalidTemplate e => e.message
  | .published e => e.message

variable {σ : Type}

/-- Saves a template, published now. -/
def World.publish (t : Template) : ExceptT InstallError (StateM (World σ)) Unit := fun w =>
  let (now, w) := World.now w
  match t.publish now with
  | .error e => (.error (.invalidTemplate e), w)
  | .ok published =>
    match w.store.saveTemplate published with
    | .error e => (.error (.published e), w)
    | .ok store => (.ok (), { w with store })

namespace Catalog

def installTemplate (t : Template) : ExceptT InstallError (StateM (World σ)) Unit := do
  let stored := (← get).store.template? t.id t.version
  if stored.any (·.isPublished) then return
  World.publish t

/-- Templates come first, so that an invalid one leaves rule sets and formulas as they are. -/
def install (c : Catalog) : ExceptT InstallError (StateM (World σ)) Unit := do
  c.templates.forM installTemplate
  modify fun w =>
    { w with
      store := c.formulas.foldl Store.saveFormula (c.ruleSets.foldl Store.saveRuleSet w.store) }

end Catalog

end Casework
