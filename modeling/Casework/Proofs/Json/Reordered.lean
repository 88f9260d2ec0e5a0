import Mathlib.Data.List.Perm.Basic
import Casework.Proofs.Json.RoundTrip

/-!
# Members in another order

Two writers of one value may differ in where they put the members of its objects: one keeps to the
order in which fields are declared, another one sorts by name, and a store may have an order of its
own. What they write is the same value reordered, at every depth. Such a value is as exact as the
one it comes from, so that it is read back from its text as well.
-/

namespace Casework.Json

theorem toDocuments_eq (items : List Json) : toDocuments items = items.map toDocument := by
  induction items with
  | nil => rfl
  | cons j items ih => rw [toDocuments, ih, List.map_cons]

theorem toEntries_eq (members : List (String × Json)) :
    toEntries members = members.map fun m => (.text m.1, m.2.toDocument) := by
  induction members with
  | nil => rfl
  | cons m members ih => rw [toEntries, ih, List.map_cons]

/-- The first value is the second one, except that the members of its objects may stand in another
order. -/
inductive Reordered : Json → Json → Prop
  | null : Reordered .null .null
  | bool (b : Bool) : Reordered (.bool b) (.bool b)
  | int (i : Int) : Reordered (.int i) (.int i)
  | real (x : Double) : Reordered (.real x) (.real x)
  | text (s : String) : Reordered (.text s) (.text s)
  | array {pairs : List (Json × Json)} (h : ∀ p ∈ pairs, Reordered p.1 p.2) :
      Reordered (.array (pairs.map Prod.fst)) (.array (pairs.map Prod.snd))
  | object {pairs : List (String × Json × Json)} {others : List (String × Json)}
      (h : ∀ p ∈ pairs, Reordered p.2.1 p.2.2)
      (hothers : (pairs.map fun p => (p.1, p.2.2)).Perm others) :
      Reordered (.object (pairs.map fun p => (p.1, p.2.1))) (.object others)

namespace Reordered

variable {j k : Json}

/-! ### Values that keep their order -/

theorem array_self {items : List Json} (h : ∀ j ∈ items, Reordered j j) :
    Reordered (.array items) (.array items) := by
  have hpairs : ∀ p ∈ items.map fun j => (j, j), Reordered p.1 p.2 := by
    intro p hp
    obtain ⟨j, hj, rfl⟩ := List.mem_map.1 hp
    exact h j hj
  simpa [Function.comp_def] using array hpairs

/-- The members of an object change places, and nothing else does. -/
theorem object_perm {members others : List (String × Json)} (hperm : members.Perm others)
    (h : ∀ m ∈ members, Reordered m.2 m.2) : Reordered (.object members) (.object others) := by
  have hpairs : ∀ p ∈ members.map fun m => (m.1, m.2, m.2), Reordered p.2.1 p.2.2 := by
    intro p hp
    obtain ⟨m, hm, rfl⟩ := List.mem_map.1 hp
    exact h m hm
  have hothers : ((members.map fun m => (m.1, m.2, m.2)).map fun p => (p.1, p.2.2)).Perm
      others := by
    simpa [Function.comp_def] using hperm
  simpa [Function.comp_def] using object hpairs hothers

mutual

theorem refl : ∀ j : Json, Reordered j j
  | .null => .null
  | .bool b => .bool b
  | .int i => .int i
  | .real x => .real x
  | .text s => .text s
  | .array items => array_self (refl_items items)
  | .object members => object_perm (.refl _) (refl_members members)

theorem refl_items : ∀ items : List Json, ∀ j ∈ items, Reordered j j
  | [] => by simp
  | j :: items => List.forall_mem_cons.2 ⟨refl j, refl_items items⟩

theorem refl_members : ∀ members : List (String × Json), ∀ m ∈ members, Reordered m.2 m.2
  | [] => by simp
  | (_, j) :: members => List.forall_mem_cons.2 ⟨refl j, refl_members members⟩

end

/-! ### What the order does not matter to -/

protected theorem exact (h : Reordered j k) (hk : k.Exact) : j.Exact := by
  induction h with
  | null => exact hk
  | bool b => exact hk
  | int i => exact hk
  | real x => exact hk
  | text s => exact hk
  | array h ih =>
    cases hk with
    | array hk =>
      apply Exact.array
      intro j hj
      obtain ⟨p, hp, rfl⟩ := List.mem_map.1 hj
      exact ih p hp (hk p.2 (List.mem_map_of_mem hp))
  | object h hothers ih =>
    cases hk with
    | object hk =>
      apply Exact.object
      intro m hm
      obtain ⟨p, hp, rfl⟩ := List.mem_map.1 hm
      exact ih p hp (hk (p.1, p.2.2) (hothers.mem_iff.1 (List.mem_map_of_mem hp)))

/-- A list stands for a list of the same length, item by item. -/
theorem of_array {others : List Json} (h : Reordered j (.array others)) :
    ∃ items, j = .array items ∧ List.Forall₂ Reordered items others := by
  cases h with
  | @array pairs h =>
    refine ⟨_, rfl, ?_⟩
    rw [List.forall₂_map_left_iff, List.forall₂_map_right_iff, List.forall₂_same]
    exact h

/-- An object stands for an object with the same names, which has every member under its name. -/
theorem of_object {others : List (String × Json)} (h : Reordered j (.object others)) :
    ∃ members, j = .object members ∧ (members.map Prod.fst).Perm (others.map Prod.fst) ∧
      ∀ o ∈ others, ∃ i, (o.1, i) ∈ members ∧ Reordered i o.2 := by
  cases h with
  | @object pairs _ h hothers =>
    refine ⟨_, rfl, ?_, ?_⟩
    · have hnames := hothers.map Prod.fst
      simpa [Function.comp_def] using hnames
    · intro o ho
      obtain ⟨p, hp, rfl⟩ := List.mem_map.1 (hothers.mem_iff.2 ho)
      exact ⟨p.2.1, List.mem_map_of_mem hp, h p hp⟩

end Reordered

/-- Whatever the order, a value without fractions is read back from its compact text. -/
theorem document?_compact_of_reordered {j k : Json} (h : Reordered j k) (hk : k.Exact) :
    document? j.compact = some j.toDocument :=
  document?_compact (h.exact hk)

end Casework.Json
