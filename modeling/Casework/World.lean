import Casework.Store.Basic

/-!
# What an engine works on

Besides a store there are a clock and a source of ids, both given by all their answers at once, and
whatever executors remember between two calls. At most one call to the store is planned to be lost.
-/

namespace Casework

/-- The calls of an engine to its store that can be lost. -/
inductive StoreCall where
  | loadStatus | saveRecord | loadTemplate | loadRecord | latestVersion
deriving DecidableEq, Repr

instance : Named StoreCall where
  noun := "store call"
  all := [.loadStatus, .saveRecord, .loadTemplate, .loadRecord, .latestVersion]
  name
    | .loadStatus => "load_status"
    | .saveRecord => "save_case_workflow"
    | .loadTemplate => "load_template"
    | .loadRecord => "load_case_workflow"
    | .latestVersion => "latest_template_version"

def StoreCall.name (c : StoreCall) : String := Named.name c

structure Outage where
  call : StoreCall
  /-- How many calls of the kind come through before one is lost. -/
  passing : Nat
deriving DecidableEq, Repr

structure World (σ : Type) where
  store : Store
  clock : Nat → Time
  readings : Nat
  ids : Nat → Id
  drawn : Nat
  outage : Option Outage
  memory : σ

namespace World

variable {σ : Type}

def now : StateM (World σ) Time := fun w =>
  (w.clock w.readings, { w with readings := w.readings + 1 })

def newId : StateM (World σ) Id := fun w => (w.ids w.drawn, { w with drawn := w.drawn + 1 })

def updateStore (f : Store → Store) : StateM (World σ) Unit := fun w =>
  ((), { w with store := f w.store })

/-- Whether the call comes through. An outage is over once it has cost a call. -/
def reaches (call : StoreCall) : StateM (World σ) Bool := fun w =>
  match w.outage with
  | some ⟨lost, passing⟩ =>
    if lost = call then
      match passing with
      | 0 => (false, { w with outage := none })
      | n + 1 => (true, { w with outage := some ⟨lost, n⟩ })
    else (true, w)
  | none => (true, w)

end World

end Casework
