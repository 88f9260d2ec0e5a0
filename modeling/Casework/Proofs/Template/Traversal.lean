import Mathlib.Logic.Function.Iterate
import Casework.Proofs.Template.Links

/-!
# Going through the steps in order

A valid template can be looked at through its graph: the graph finds the steps that the template
finds, and each id has the one place at which its step stands in the order. Hence whoever goes on
from the first step to the next one in order meets every step once, and then comes to the end.
-/

namespace Casework

namespace Template

variable {t : Template}

/-- All steps, each once, by sort order and those with the same sort order as they are declared. -/
structure InOrder (t : Template) (visited : List Step) : Prop where
  perm : visited.Perm t.steps
  ascending : visited.Pairwise t.Before

theorem inOrder_ordered (h : t.validate = .ok ()) : t.InOrder t.ordered :=
  ⟨t.ordered_perm, pairwise_ordered h⟩

end Template

namespace StepGraph

variable {t : Template} {s : Step} {id : String}

/-- The step to be visited behind this one, as long as there is one. -/
def following (g : StepGraph) (next : Option Step) : Option Step :=
  next.bind fun s => (g.nextInOrder s).bind g.step?

theorem step?_ofTemplate (h : t.validate = .ok ()) (id : String) :
    (ofTemplate t).step? id = t.step? id := by
  cases hfind : t.step? id with
  | none =>
    have hnone := step?_isNone t id
    rw [hfind, Option.isNone_none] at hnone
    exact Option.isNone_iff_eq_none.1 hnone
  | some s =>
    have hmem : s ∈ t.steps := List.mem_of_find?_eq_some hfind
    obtain rfl : s.id = id := by simpa using List.find?_some hfind
    exact step?_of_mem h hmem

theorem following_getElem? (h : t.validate = .ok ()) (place : Nat) :
    (ofTemplate t).following t.ordered[place]? = t.ordered[place + 1]? := by
  cases hplace : t.ordered[place]? with
  | none =>
    have hlength : t.ordered.length ≤ place := List.getElem?_eq_none_iff.1 hplace
    exact (List.getElem?_eq_none (Nat.le_succ_of_le hlength)).symm
  | some s =>
    rw [following, Option.bind_some, nextInOrder_of_place h hplace]
    cases hnext : t.ordered[place + 1]? with
    | none => rfl
    | some u =>
      have hmem : u ∈ t.steps := Template.mem_ordered.1 (List.mem_of_getElem? hnext)
      exact step?_of_mem h hmem

/-- By induction on the number of steps gone. -/
theorem following_iterate (h : t.validate = .ok ()) (n : Nat) :
    (ofTemplate t).following^[n] t.ordered.head? = t.ordered[n]? := by
  induction n with
  | zero => exact List.head?_eq_getElem?
  | succ n ih => rw [Function.iterate_succ_apply', ih, following_getElem? h]

theorem exists_step?_of_edge (h : t.validate = .ok ()) (hs : s ∈ t.steps)
    (hedge : (ofTemplate t).afterSuccess s = some id ∨ s.onFailure = some id) :
    ∃ u, (ofTemplate t).step? id = some u := by
  apply exists_step?_of_knows
  rcases hedge with hsuccess | hfailure
  · rw [← hsuccess]
    exact knows_afterSuccess h hs
  · exact knows_of_onFailure h hs hfailure

/-- Whatever is asked of the graph, the answer is the one that the template has. -/
structure Mirrors (g : StepGraph) (t : Template) : Prop where
  finds : ∀ id, g.step? id = t.step? id
  places : ∀ id place, g.position? id = some place ↔ t.ordered[place]?.map Step.id = some id
  /-- Going on from the first step one meets all of them in order, and then none. -/
  visits : ∃ visited, t.InOrder visited ∧ ∀ n, g.following^[n] t.ordered.head? = visited[n]?
  declared : ∀ s target, s.onSuccess = some target → g.afterSuccess s = some target
  undeclared : ∀ s, s.onSuccess = none → g.afterSuccess s = g.nextInOrder s
  edges : ∀ s ∈ t.steps, ∀ id, g.afterSuccess s = some id ∨ s.onFailure = some id →
    ∃ u, g.step? id = some u

theorem mirrors_of_validate (h : t.validate = .ok ()) : (ofTemplate t).Mirrors t where
  finds := step?_ofTemplate h
  places _ _ := position?_eq_some_iff h
  visits := ⟨t.ordered, Template.inOrder_ordered h, following_iterate h⟩
  declared _ _ htarget := by rw [afterSuccess, htarget, Option.some_or]
  undeclared _ hnone := by rw [afterSuccess, hnone, Option.none_or]
  edges _ hs _ hedge := exists_step?_of_edge h hs hedge

namespace Contract

def sign : Step := ⟨"sign", "sign", .clientApproval, 20, none, true, none, none⟩

def draft : Step := ⟨"draft", "draft", .documentGeneration, 10, none, true, some "sign", none⟩

def check : Step := ⟨"check", "check", .humanTask, 10, none, false, none, some "draft"⟩

end Contract

open Contract

/-- Three steps, of which the first one declared comes last. -/
def contract : Template where
  id := "contract"
  version := 1
  name := "contract"
  description := none
  steps := [sign, draft, check]
  publishedAt := none

/-- A draft that succeeds is signed unchecked; in order the check comes in between. -/
theorem mirrors_of_validate_contract :
    contract.validate = .ok () ∧ (ofTemplate contract).Mirrors contract ∧
      contract.ordered.map Step.id = ["draft", "check", "sign"] ∧
      ((ofTemplate contract).step? "draft").bind (ofTemplate contract).afterSuccess = some "sign" ∧
      ((ofTemplate contract).step? "draft").bind (ofTemplate contract).nextInOrder =
        some "check" := by
  have hvalid : contract.validate = .ok () := rfl
  have hordered : contract.ordered = [draft, check, sign] :=
    Template.ordered_eq_of_pairwise hvalid (by decide) (by decide)
  refine ⟨hvalid, mirrors_of_validate hvalid, ?_, ?_, ?_⟩
  · rw [hordered]
    rfl
  · rw [ofTemplate, hordered]
    rfl
  · rw [ofTemplate, hordered]
    rfl

end StepGraph

end Casework
