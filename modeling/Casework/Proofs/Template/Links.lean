import Casework.Proofs.Template.Order

/-!
# Where the steps of a template lead

A step names the steps to go on with by their ids. In a valid template each of these is the id of a
step, and so is what comes next in order. So whoever follows the edges of a valid template from one
of its steps gets to a step again, or to the end.
-/

namespace Casework

namespace Template

/-- One can go on there: it is a step of the template, or the end. -/
def Knows (t : Template) (next : Option String) : Prop := ∀ id ∈ next, ∃ s ∈ t.steps, s.id = id

variable {t : Template} {s : Step} {id : String}

theorem knows_none (t : Template) : t.Knows none := nofun

theorem knows_id (h : s ∈ t.steps) : t.Knows (some s.id) := by
  intro id hid
  obtain rfl := Option.some.inj hid
  exact ⟨s, h, rfl⟩

theorem knows_iff_step? : t.Knows (some id) ↔ (t.step? id).isSome := by
  rw [step?, List.find?_isSome]
  constructor
  · intro h
    obtain ⟨s, hs, rfl⟩ := h id rfl
    exact ⟨s, hs, beq_self_eq_true s.id⟩
  · rintro ⟨s, hs, hid⟩
    obtain rfl : s.id = id := by simpa using hid
    exact knows_id hs

theorem strayLink?_of_validate (h : t.validate = .ok ()) : t.strayLink? = none := by
  rw [validate] at h
  cases hduplicate : duplicate? [] t.steps with
  | some id =>
    rw [hduplicate] at h
    cases h
  | none =>
    simp only [hduplicate] at h
    cases hstray : t.strayLink? with
    | none => rfl
    | some link =>
      rw [hstray] at h
      cases h

theorem knows_successor (h : t.validate = .ok ()) (hs : s ∈ t.steps) {target : String}
    (htarget : target ∈ s.successors) : t.Knows (some target) := by
  have hnone := List.findSome?_eq_none_iff.1 (strayLink?_of_validate h) s hs
  have hknown := List.find?_eq_none.1 (Option.map_eq_none_iff.1 hnone) target htarget
  have hany : t.steps.any (·.id == target) := by simpa using hknown
  obtain ⟨u, hu, hid⟩ := List.any_eq_true.1 hany
  obtain rfl : u.id = target := by simpa using hid
  exact knows_id hu

end Template

namespace StepGraph

variable {t : Template} {s : Step} {id : String}

theorem exists_step?_of_knows (h : t.Knows (some id)) : ∃ s, (ofTemplate t).step? id = some s := by
  have hknown := Template.knows_iff_step?.1 h
  have hnone := step?_isNone t id
  cases hfind : (ofTemplate t).step? id with
  | some s => exact ⟨s, rfl⟩
  | none =>
    rw [hfind, Option.isNone_none] at hnone
    rw [← Option.not_isNone, ← hnone] at hknown
    exact nomatch hknown

theorem knows_of_onFailure (h : t.validate = .ok ()) (hs : s ∈ t.steps) {target : String}
    (htarget : s.onFailure = some target) : t.Knows (some target) :=
  Template.knows_successor h hs (by simp [Step.successors, htarget])

theorem knows_nextInOrder (t : Template) (s : Step) : t.Knows ((ofTemplate t).nextInOrder s) := by
  intro id hid
  obtain ⟨place, -, hid⟩ := Option.bind_eq_some_iff.1 hid
  obtain ⟨u, hu, hid⟩ := Option.bind_eq_some_iff.1 hid
  exact ⟨u, Template.mem_ordered.1 (List.mem_of_getElem? hu), Option.some.inj hid⟩

theorem knows_afterSuccess (h : t.validate = .ok ()) (hs : s ∈ t.steps) :
    t.Knows ((ofTemplate t).afterSuccess s) := by
  rw [afterSuccess]
  cases hsuccess : s.onSuccess with
  | none => exact knows_nextInOrder t s
  | some target => exact Template.knows_successor h hs (by simp [Step.successors, hsuccess])

end StepGraph

end Casework
