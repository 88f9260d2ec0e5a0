import Casework.Proofs.Engine.Session
import Mathlib.Data.List.Forall2
import Mathlib.Data.List.Nodup

/-!
# The history of a case

The executions of a case are its history. More are added, each with an id that has not been drawn
before, and one that was under way may be found to have failed. Apart from this and from the outcome
of the newest one, nothing of a history changes. A record *follows* a past if it comes from there.
-/

namespace Casework

variable {σ : Type}

/-! ### Histories that grow -/

namespace Execution

theorem Matures.id_eq {x y : Execution} (h : x.Matures y) : y.id = x.id := by
  cases h <;> rfl

theorem Matures.trans {x y z : Execution} (h : x.Matures y) (h' : y.Matures z) : x.Matures z := by
  cases h with
  | kept => exact h'
  | failed hx message now =>
    cases h' with
    | kept => exact .failed hx message now
    | failed hfailed => exact nomatch hfailed

/-- Each of the executions is still at its place, as it was or as it has matured. -/
def Extend (es es' : List Execution) : Prop :=
  ∀ (i : Nat) (x : Execution), es[i]? = some x → ∃ y, es'[i]? = some y ∧ x.Matures y

namespace Extend

variable {es es' es'' : List Execution}

theorem refl (es : List Execution) : Extend es es := fun _ x hx => ⟨x, hx, .kept⟩

theorem nil (es : List Execution) : Extend [] es := fun _ _ hx => nomatch hx

theorem trans (h : Extend es es') (h' : Extend es' es'') : Extend es es'' := by
  intro i x hx
  obtain ⟨y, hy, hxy⟩ := h i x hx
  obtain ⟨z, hz, hyz⟩ := h' i y hy
  exact ⟨z, hz, hxy.trans hyz⟩

theorem append (es added : List Execution) : Extend es (es ++ added) := by
  intro i x hx
  obtain ⟨hi, -⟩ := List.getElem?_eq_some_iff.1 hx
  exact ⟨x, by rw [List.getElem?_append_left hi, hx], .kept⟩

theorem of_forall₂ (h : es.Forall₂ Matures es') : Extend es es' := by
  intro i x hx
  induction h generalizing i with
  | nil => exact nomatch hx
  | @cons a b _ _ hab _ ih =>
    cases i with
    | zero =>
      obtain rfl : a = x := Option.some.inj hx
      exact ⟨b, rfl, hab⟩
    | succ i => exact ih i hx

end Extend

/-- An execution that was under way may be found to have failed. -/
theorem forall₂_fail {es : List Execution} {place : Nat}
    (hrunning : es[place]?.any (·.status == .running)) (message : String) (now : Time) :
    es.Forall₂ Matures (es.modify place (·.fail message now)) := by
  induction es generalizing place with
  | nil =>
    rw [List.modify_nil]
    exact .nil
  | cons x es ih =>
    cases place with
    | zero =>
      have hx : x.status = .running := by simpa using hrunning
      exact .cons (.failed hx message now) (List.forall₂_same.2 fun _ _ => .kept)
    | succ place => exact .cons .kept (ih (by simpa using hrunning))

theorem ids_of_forall₂ {es es' : List Execution} (h : es.Forall₂ Matures es') :
    es'.map (·.id) = es.map (·.id) := by
  induction h with
  | nil => rfl
  | cons hab _ ih => rw [List.map_cons, List.map_cons, hab.id_eq, ih]

theorem ids_modify (es : List Execution) (place : Nat) {f : Execution → Execution}
    (hf : ∀ x, (f x).id = x.id) : (es.modify place f).map (·.id) = es.map (·.id) := by
  refine List.ext_getElem? fun i => ?_
  rw [List.getElem?_map, List.getElem?_map, List.getElem?_modify]
  cases es[i]? with
  | none => rfl
  | some x => by_cases h : place = i <;> simp [h, hf]

/-- The last execution is found by its id, if no other has the same. -/
theorem findIdx?_last {es : List Execution} {x : Execution} (hnew : ∀ y ∈ es, y.id ≠ x.id) :
    (es ++ [x]).findIdx? (fun y => y.id == x.id) = some es.length := by
  have hbefore : es.findIdx? (fun y => y.id == x.id) = none := by
    rw [List.findIdx?_eq_none_iff]
    intro y hy
    simpa using hnew y hy
  rw [List.findIdx?_append, hbefore]
  simp [List.findIdx?_cons]

end Execution

/-! ### Records that follow a past -/

/-- What is known of a case from some time on: its origin, the executions at the time, and the ids,
of which some had been drawn. -/
structure Past where
  origin : CaseRecord.Origin
  executions : List Execution
  ids : Nat → Id
  drawn : Nat

namespace CaseRecord

/-- The record has the origin, its executions extend those of the past, and their ids are distinct
and have been drawn. -/
structure Follows (p : Past) (drawn : Nat) (r : CaseRecord) : Prop where
  origin : r.origin = p.origin
  executions : Execution.Extend p.executions r.executions
  distinct : (r.executions.map (·.id)).Nodup
  ids : ∀ id ∈ r.executions.map (·.id), ∃ n < drawn, id = p.ids n

namespace Follows

variable {p : Past} {drawn drawn' : Nat} {r r' : CaseRecord}

theorem id (h : r.Follows p drawn) : r.id = p.origin.id := congrArg Origin.id h.origin

/-- The rest of a record does not matter. -/
theorem of_eq (h : r.Follows p drawn) (horigin : r'.origin = r.origin)
    (hexecutions : r'.executions = r.executions) : r'.Follows p drawn where
  origin := horigin.trans h.origin
  executions := hexecutions ▸ h.executions
  distinct := hexecutions ▸ h.distinct
  ids := hexecutions ▸ h.ids

theorem later (h : r.Follows p drawn) (hle : drawn ≤ drawn') : r.Follows p drawn' where
  origin := h.origin
  executions := h.executions
  distinct := h.distinct
  ids id hid := by
    obtain ⟨n, hn, heq⟩ := h.ids id hid
    exact ⟨n, Nat.lt_of_lt_of_le hn hle, heq⟩

/-- What follows a past follows any other of the same case that the history extends. -/
theorem rebase (h : r.Follows p drawn) {executions : List Execution} (n : Nat)
    (hextend : Execution.Extend executions r.executions) :
    r.Follows { p with executions, drawn := n } drawn :=
  ⟨h.origin, hextend, h.distinct, h.ids⟩

theorem append (h : r.Follows p drawn) (hids : Function.Injective p.ids) {x : Execution}
    (hx : x.id = p.ids drawn) :
    Follows p (drawn + 1) { r with executions := r.executions ++ [x] } where
  origin := h.origin
  executions := h.executions.trans (.append _ _)
  distinct := by
    rw [List.map_append, List.nodup_append]
    refine ⟨h.distinct, List.nodup_singleton _, ?_⟩
    intro id hid id' hid' heq
    obtain rfl : id' = x.id := List.mem_singleton.1 hid'
    obtain ⟨n, hn, hdrawn⟩ := h.ids id hid
    have hsame := hids (hdrawn.symm.trans (heq.trans hx))
    omega
  ids id hid := by
    rw [List.map_append, List.mem_append] at hid
    rcases hid with hid | hid
    · exact (h.later (Nat.le_succ drawn)).ids id hid
    · exact ⟨drawn, Nat.lt_succ_self _, (List.mem_singleton.1 hid).trans hx⟩

theorem replace (h : r.Follows p drawn) {es : List Execution}
    (hextend : Execution.Extend p.executions es)
    (hids : es.map (·.id) = r.executions.map (·.id)) :
    Follows p drawn { r with executions := es } where
  origin := h.origin
  executions := hextend
  distinct := hids ▸ h.distinct
  ids := hids ▸ h.ids

end Follows

end CaseRecord

end Casework
