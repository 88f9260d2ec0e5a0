import Casework.Template.Graph
import Mathlib.Data.List.Nodup

/-!
# The order of the steps

The steps of a template are taken by sort order, those with the same sort order as they are declared.
`Before` says this about two steps, without sorting any list, and the graph of the template goes from
a step to the one that comes next in this sense. For that the ids have to be distinct, as they are in
a template that is valid.
-/

namespace Casework

namespace Template

variable {t : Template} {a b s : Step}

def Before (t : Template) (a b : Step) : Prop :=
  a.sortOrder < b.sortOrder ∨ a.sortOrder = b.sortOrder ∧ [a, b].Sublist t.steps

instance (t : Template) (a b : Step) : Decidable (t.Before a b) :=
  inferInstanceAs (Decidable (_ ∨ _))

/-- No step comes before this one. -/
def IsFirst (t : Template) (s : Step) : Prop :=
  s ∈ t.steps ∧ ∀ u ∈ t.steps, u = s ∨ t.Before s u

/-- What comes next in order: the first of the steps behind this one, or the end. -/
inductive NextInOrder (t : Template) (s : Step) : Option String → Prop
  | step {n : Step} (hmem : n ∈ t.steps) (hbehind : t.Before s n)
      (hnearest : ∀ u ∈ t.steps, t.Before s u → u = n ∨ t.Before n u) : NextInOrder t s (some n.id)
  | last (hnone : ∀ u ∈ t.steps, ¬ t.Before s u) : NextInOrder t s none

/-! ### Valid templates -/

theorem duplicate?_eq_none {seen : List String} {ss : List Step}
    (h : duplicate? seen ss = none) :
    (ss.map Step.id).Nodup ∧ ∀ s ∈ ss, s.id ∉ seen := by
  induction ss generalizing seen with
  | nil => simp
  | cons s ss ih =>
    rw [duplicate?] at h
    by_cases hs : s.id ∈ seen
    · rw [if_pos hs] at h
      exact nomatch h
    · rw [if_neg hs] at h
      obtain ⟨hnodup, hunseen⟩ := ih h
      have hfresh : ∀ u ∈ ss, u.id ≠ s.id ∧ u.id ∉ seen := by
        intro u hu
        simpa using hunseen u hu
      constructor
      · rw [List.map_cons, List.nodup_cons]
        refine ⟨?_, hnodup⟩
        intro hmem
        obtain ⟨u, hu, hid⟩ := List.mem_map.1 hmem
        exact (hfresh u hu).1 hid
      · intro u hu
        cases hu with
        | head => exact hs
        | tail _ hu => exact (hfresh u hu).2

theorem nodup_of_validate (h : t.validate = .ok ()) : (t.steps.map Step.id).Nodup := by
  rw [validate] at h
  cases hduplicate : duplicate? [] t.steps with
  | none => exact (duplicate?_eq_none hduplicate).1
  | some id =>
    rw [hduplicate] at h
    exact nomatch h

theorem steps_nodup (h : t.validate = .ok ()) : t.steps.Nodup :=
  List.Nodup.of_map _ (nodup_of_validate h)

theorem eq_of_id (h : t.validate = .ok ()) (ha : a ∈ t.steps) (hb : b ∈ t.steps)
    (hid : a.id = b.id) : a = b :=
  List.inj_on_of_nodup_map (nodup_of_validate h) ha hb hid

theorem step?_of_mem (h : t.validate = .ok ()) (hs : s ∈ t.steps) : t.step? s.id = some s := by
  cases hfind : t.step? s.id with
  | none =>
    have hnone := List.find?_eq_none.1 hfind s hs
    exact absurd (beq_self_eq_true s.id) hnone
  | some a =>
    have hid : a.id = s.id := by simpa using List.find?_some hfind
    rw [eq_of_id h (List.mem_of_find?_eq_some hfind) hs hid]

/-! ### The sorted list -/

theorem ordered_perm (t : Template) : t.ordered.Perm t.steps := List.mergeSort_perm ..

theorem mem_ordered : s ∈ t.ordered ↔ s ∈ t.steps := t.ordered_perm.mem_iff

theorem nodup_ordered (h : t.validate = .ok ()) : (t.ordered.map Step.id).Nodup :=
  (t.ordered_perm.map _).nodup_iff.2 (nodup_of_validate h)

/-- No two places have steps with one id. -/
theorem place_unique {i j : Nat} (h : t.validate = .ok ()) (ha : t.ordered[i]? = some a)
    (hb : t.ordered[j]? = some b) (hid : a.id = b.id) : i = j := by
  have hi : (t.ordered.map Step.id)[i]? = some a.id := by
    rw [List.getElem?_map, ha, Option.map_some]
  have hj : (t.ordered.map Step.id)[j]? = some a.id := by
    rw [List.getElem?_map, hb, Option.map_some, hid]
  have hlt : i < (t.ordered.map Step.id).length := (List.getElem?_eq_some_iff.1 hi).1
  exact (List.getElem?_inj hlt (nodup_ordered h)).1 (hi.trans hj.symm)

/-- In a list without repetition two values stand one way round only. -/
theorem not_sublist_swap {l : List Step} (hnodup : l.Nodup) (hab : [a, b].Sublist l) :
    ¬ [b, a].Sublist l := by
  induction l with
  | nil => exact nomatch hab
  | cons x l ih =>
    obtain ⟨hx, hl⟩ := List.nodup_cons.1 hnodup
    intro hba
    cases hab with
    | cons _ hab =>
      cases hba with
      | cons _ hba => exact ih hl hab hba
      | cons_cons _ _ => exact hx (hab.subset (by simp))
    | cons_cons _ hb =>
      cases hba with
      | cons _ hba => exact hx (hba.subset (by simp))
      | cons_cons _ _ => exact hx (hb.subset (by simp))

theorem Before.asymm (h : t.steps.Nodup) (hab : t.Before a b) : ¬ t.Before b a := by
  intro hba
  rcases hab with hab | ⟨hab, hdeclared⟩
  · rcases hba with hba | ⟨hba, -⟩ <;> omega
  · rcases hba with hba | ⟨-, hdeclared'⟩
    · omega
    · exact not_sublist_swap h hdeclared hdeclared'

/-- Two different values of a list stand in it one way round. -/
theorem sublist_or_sublist {l : List Step} (ha : a ∈ l) (hb : b ∈ l) (hne : a ≠ b) :
    [a, b].Sublist l ∨ [b, a].Sublist l := by
  induction l with
  | nil => exact nomatch ha
  | cons x l ih =>
    cases ha with
    | head =>
      have hb' : b ∈ l := by simpa [hne.symm] using hb
      exact .inl ((List.singleton_sublist.2 hb').cons_cons a)
    | tail _ ha =>
      cases hb with
      | head => exact .inr ((List.singleton_sublist.2 ha).cons_cons b)
      | tail _ hb =>
        rcases ih ha hb with h | h
        · exact .inl (h.cons x)
        · exact .inr (h.cons x)

theorem pairwise_ordered (h : t.validate = .ok ()) : t.ordered.Pairwise t.Before := by
  have hnodup : t.ordered.Nodup := List.Nodup.of_map _ (nodup_ordered h)
  have hsorted : t.ordered.Pairwise fun a b => a.sortOrder ≤ b.sortOrder := by
    have hpairwise := @List.pairwise_mergeSort Step (fun a b => a.sortOrder ≤ b.sortOrder)
      (by intro a b c; simp; omega) (by intro a b; simp; omega) t.steps
    simpa [ordered] using hpairwise
  rw [List.pairwise_iff_forall_sublist] at hsorted ⊢
  intro a b hab
  rcases Int.lt_or_eq_of_le (hsorted hab) with hlt | heq
  · exact .inl hlt
  · refine .inr ⟨heq, ?_⟩
    have hmem (x : Step) (hx : x ∈ [a, b]) : x ∈ t.steps := mem_ordered.1 (hab.subset hx)
    have hne : a ≠ b := by
      have hpair := hnodup.sublist hab
      simpa using hpair
    rcases sublist_or_sublist (hmem a (by simp)) (hmem b (by simp)) hne with hdeclared | hswapped
    · exact hdeclared
    · have hkept : [b, a].Sublist t.ordered :=
        List.pair_sublist_mergeSort (by intro a b c; simp; omega) (by intro a b; simp; omega)
          (by simp [heq]) hswapped
      exact absurd hkept (not_sublist_swap hnodup hab)

/-- There is no other list of the steps in which each stands before those behind it. -/
theorem ordered_eq_of_pairwise (h : t.validate = .ok ()) {ss : List Step}
    (hperm : ss.Perm t.steps) (hss : ss.Pairwise t.Before) : t.ordered = ss := by
  refine (t.ordered_perm.trans hperm.symm).eq_of_pairwise ?_ (pairwise_ordered h) hss
  exact fun a b _ _ hab hba => absurd hba (hab.asymm (steps_nodup h))

theorem isFirst_of_ordered {others : List Step} (h : t.validate = .ok ())
    (hfirst : t.ordered = s :: others) : t.IsFirst s := by
  have hpairwise := pairwise_ordered h
  rw [hfirst, List.pairwise_cons] at hpairwise
  refine ⟨mem_ordered.1 (by simp [hfirst]), ?_⟩
  intro u hu
  rw [← mem_ordered, hfirst] at hu
  cases hu with
  | head => exact .inl rfl
  | tail _ hu => exact .inr (hpairwise.1 u hu)

/-- Behind a step in the sorted list stands the one that comes next. -/
theorem nextInOrder_of_ordered {before behind : List Step} (h : t.validate = .ok ())
    (hordered : t.ordered = before ++ s :: behind) :
    t.NextInOrder s (behind.head?.map Step.id) := by
  have hpairwise := pairwise_ordered h
  rw [hordered, List.pairwise_append, List.pairwise_cons] at hpairwise
  obtain ⟨-, ⟨hbehind, hrest⟩, hbefore⟩ := hpairwise
  have hplace : ∀ u ∈ t.steps, t.Before s u → u ∈ behind := by
    intro u hu hsu
    have hasymm := hsu.asymm (steps_nodup h)
    rw [← mem_ordered, hordered, List.mem_append, List.mem_cons] at hu
    rcases hu with hu | rfl | hu
    · exact absurd (hbefore u hu s List.mem_cons_self) hasymm
    · exact absurd hsu hasymm
    · exact hu
  cases behind with
  | nil =>
    refine .last ?_
    intro u hu hsu
    exact nomatch hplace u hu hsu
  | cons n behind =>
    refine .step (mem_ordered.1 (by simp [hordered])) (hbehind n List.mem_cons_self) ?_
    intro u hu hsu
    cases hplace u hu hsu with
    | head => exact .inl rfl
    | tail _ hu => exact .inr ((List.pairwise_cons.1 hrest).1 u hu)

end Template

/-! ### The graph -/

namespace StepGraph

variable {t : Template} {s : Step}

theorem step?_eq_find? (g : StepGraph) (id : String) :
    g.step? id = g.order.find? fun s => s.id == id := by
  rw [step?, position?, List.find?_eq_bind_findIdx?_getElem?]

/-- The graph knows the steps that the template knows. -/
theorem step?_isNone (t : Template) (id : String) :
    ((ofTemplate t).step? id).isNone = (t.step? id).isNone := by
  rw [Bool.eq_iff_iff, Option.isNone_iff_eq_none, Option.isNone_iff_eq_none, step?_eq_find?,
    Template.step?, List.find?_eq_none, List.find?_eq_none]
  constructor
  · intro h u hu
    exact h u (Template.mem_ordered.2 hu)
  · intro h u hu
    exact h u (Template.mem_ordered.1 hu)

theorem mem_of_step? {id : String} (h : (ofTemplate t).step? id = some s) :
    s ∈ t.steps ∧ s.id = id := by
  rw [step?_eq_find?] at h
  exact ⟨Template.mem_ordered.1 (List.mem_of_find?_eq_some h), by simpa using List.find?_some h⟩

theorem step?_of_mem (h : t.validate = .ok ()) (hs : s ∈ t.steps) :
    (ofTemplate t).step? s.id = some s := by
  cases hfind : (ofTemplate t).step? s.id with
  | none =>
    have hnone := step?_isNone t s.id
    rw [hfind, Template.step?_of_mem h hs] at hnone
    cases hnone
  | some a =>
    obtain ⟨ha, hid⟩ := mem_of_step? hfind
    rw [Template.eq_of_id h ha hs hid]

/-- The places are the inverse of the order: an id has the place at which its step stands. -/
theorem position?_eq_some_iff {place : Nat} {id : String} (h : t.validate = .ok ()) :
    (ofTemplate t).position? id = some place ↔ t.ordered[place]?.map Step.id = some id := by
  rw [position?, ofTemplate, List.findIdx?_eq_some_iff_getElem]
  constructor
  · intro hfirst
    obtain ⟨hlt, hid, -⟩ := hfirst
    rw [List.getElem?_eq_getElem hlt, Option.map_some, beq_iff_eq.1 hid]
  · intro hplace
    obtain ⟨s, hs, hid⟩ := Option.map_eq_some_iff.1 hplace
    obtain ⟨hlt, hget⟩ := List.getElem?_eq_some_iff.1 hs
    refine ⟨hlt, by rw [hget, hid, beq_self_eq_true], ?_⟩
    intro earlier hearlier hsame
    have hlt' : earlier < t.ordered.length := Nat.lt_trans hearlier hlt
    have hid' : t.ordered[earlier].id = s.id := (beq_iff_eq.1 hsame).trans hid.symm
    have heq := Template.place_unique h (List.getElem?_eq_getElem hlt') hs hid'
    omega

theorem nextInOrder_of_place {place : Nat} (h : t.validate = .ok ())
    (hplace : t.ordered[place]? = some s) :
    (ofTemplate t).nextInOrder s = t.ordered[place + 1]?.map Step.id := by
  have hposition : (ofTemplate t).position? s.id = some place := by
    rw [position?_eq_some_iff h, hplace, Option.map_some]
  rw [nextInOrder, hposition]
  cases hnext : t.ordered[place + 1]? <;> simp [ofTemplate, hnext]

theorem nextInOrder_ofTemplate (h : t.validate = .ok ()) (hs : s ∈ t.steps) :
    t.NextInOrder s ((ofTemplate t).nextInOrder s) := by
  obtain ⟨before, behind, hordered⟩ := List.append_of_mem (Template.mem_ordered.2 hs)
  have hplace : t.ordered[before.length]? = some s := by simp [hordered]
  have hnext : (ofTemplate t).nextInOrder s = behind.head?.map Step.id := by
    rw [nextInOrder_of_place h hplace, hordered]
    cases behind <;> simp
  rw [hnext]
  exact Template.nextInOrder_of_ordered h hordered

end StepGraph

end Casework
