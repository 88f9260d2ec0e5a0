import Casework.Proofs.Dictionary
import Casework.Proofs.Json.Reread
import Casework.Proofs.Json.Sound

/-!
# Values that are read

Whole numbers of a value that is read fit into 64 bits, its fractions are finite, and in each object
the names ascend. As long as such a value does not nest too deep, it is read back from its compact
text, and each fraction is as it was up to rounding.
-/

namespace Casework

namespace Json

variable {f : Double → Double} {n : Nat} {j : Json}

/-- A value that a text can say. -/
inductive Proper : Json → Prop
  | null : Proper .null
  | bool (b : Bool) : Proper (.bool b)
  | int {i : Int} (hlow : -(twoTo 63 : Int) ≤ i) (hhigh : i < twoTo 64) : Proper (.int i)
  | real {x : Double} (h : x.Proper) : Proper (.real x)
  | text (s : String) : Proper (.text s)
  | array {items : List Json} (h : ∀ j ∈ items, Proper j) : Proper (.array items)
  | object {members : List (String × Json)} (hascending : members.Pairwise fun a b => a.1 < b.1)
      (h : ∀ m ∈ members, Proper m.2) : Proper (.object members)

mutual

/-- How many arrays and objects lie in one another. -/
def depth : Json → Nat
  | .array items => itemsDepth items + 1
  | .object members => membersDepth members + 1
  | _ => 0

def itemsDepth : List Json → Nat
  | [] => 0
  | j :: js => max j.depth (itemsDepth js)

def membersDepth : List (String × Json) → Nat
  | [] => 0
  | (_, j) :: ms => max j.depth (membersDepth ms)

end

/-- The values are the same but for their fractions, which are equal up to rounding. -/
def EqualUpToRounding (j j' : Json) : Prop :=
  ∃ f : Double → Double, (∀ x : Double, x.Proper → x.Near (f x)) ∧ j' = j.mapReals f

/-! ### Nesting -/

theorem Proper.mapReals (hf : ∀ x : Double, x.Proper → (f x).Proper) (h : j.Proper) :
    (j.mapReals f).Proper := by
  induction h with
  | null => exact .null
  | bool b => exact .bool b
  | int hlow hhigh => exact .int hlow hhigh
  | real h => exact .real (hf _ h)
  | text s => exact .text s
  | array _ ih =>
    rw [Json.mapReals, mapRealsItems_eq]
    exact .array (List.forall_mem_map.2 ih)
  | object hascending _ ih =>
    rw [Json.mapReals, mapRealsMembers_eq]
    exact .object (List.pairwise_map.2 hascending) (List.forall_mem_map.2 ih)

theorem ofTable_of_ascending {members : List (String × Json)}
    (h : members.Pairwise fun a b => a.1 < b.1) : ofTable members = .object members := by
  rw [ofTable, Dictionary.entries_ofList h]

theorem ofDouble_of_proper {x : Double} (h : x.Proper) : ofDouble x = .real x := by
  cases x with
  | finite negative m e => rfl
  | infinite negative => exact h.elim
  | nan => exact h.elim

theorem Proper.legible (h : j.Proper) : j.Legible Double.reread := by
  induction h with
  | null => exact .null
  | bool b => exact .bool b
  | int hlow hhigh => exact .int hlow hhigh
  | real h => exact .real (Double.rereadAs_reread h)
  | text s => exact .text s
  | array _ ih => exact .array ih
  | object _ _ ih => exact .object ih

theorem proper_ofDouble {x : Double} (h : x.Rounded) : (ofDouble x).Proper := by
  rcases h with hproper | ⟨negative, rfl⟩
  · rw [ofDouble_of_proper hproper]
    exact .real hproper
  · exact .null

theorem proper_ofTable {members : List (String × Json)} (h : ∀ m ∈ members, Proper m.2) :
    (ofTable members).Proper :=
  .object (Dictionary.ofList members).ascending fun m hm => h m (Dictionary.mem_of_mem_ofList hm)

theorem proper_of_ofDocuments? {ds : List Document}
    (h : ∀ d ∈ ds, ∀ j, ofDocument? n d = some j → j.Proper) {items : List Json}
    (hitems : ofDocuments? n ds = some items) : ∀ j ∈ items, Proper j := by
  induction ds generalizing items with
  | nil =>
    obtain rfl := Option.some.inj hitems
    exact nofun
  | cons d ds ih =>
    obtain ⟨hd, hds⟩ := List.forall_mem_cons.1 h
    simp only [ofDocuments?, Option.pure_def, Option.bind_eq_bind, Option.bind_eq_some_iff]
      at hitems
    obtain ⟨j, hj, js, hjs, hitems⟩ := hitems
    obtain rfl := Option.some.inj hitems
    exact List.forall_mem_cons.2 ⟨hd j hj, ih hds hjs⟩

theorem proper_of_ofEntries? {es : List (Document × Document)}
    (h : ∀ e ∈ es, ∀ j, ofDocument? n e.2 = some j → j.Proper) {members : List (String × Json)}
    (hmembers : ofEntries? n es = some members) : ∀ m ∈ members, Proper m.2 := by
  induction es generalizing members with
  | nil =>
    obtain rfl := Option.some.inj hmembers
    exact nofun
  | cons e es ih =>
    obtain ⟨he, hes⟩ := List.forall_mem_cons.1 h
    simp only [ofEntries?, Option.pure_def, Option.bind_eq_bind, Option.bind_eq_some_iff]
      at hmembers
    obtain ⟨name, -, j, hj, ms, hms, hmembers⟩ := hmembers
    obtain rfl := Option.some.inj hmembers
    exact List.forall_mem_cons.2 ⟨he j hj, ih hes hms⟩

end Json

open Json

theorem Document.Sound.proper {d : Document} {n : Nat} {j : Json} (h : d.Sound)
    (hj : ofDocument? n d = some j) : j.Proper := by
  induction h generalizing n j with
  | null =>
    obtain rfl := Option.some.inj hj
    exact .null
  | bool b =>
    obtain rfl := Option.some.inj hj
    exact .bool b
  | natural hlt =>
    obtain rfl := Option.some.inj hj
    exact .int (by rw [twoTo]; omega) (Int.ofNat_lt.2 hlt)
  | negated hpos hle =>
    obtain rfl := Option.some.inj hj
    exact .int (by omega) (by rw [twoTo]; omega)
  | real hx =>
    obtain rfl := Option.some.inj hj
    exact proper_ofDouble hx
  | text s =>
    obtain rfl := Option.some.inj hj
    exact .text s
  | invalid => cases hj
  | list _ ih =>
    cases n with
    | zero => cases hj
    | succ n =>
      obtain ⟨items, hitems, hj⟩ := Option.bind_eq_some_iff.1 hj
      obtain rfl := Option.some.inj hj
      exact .array (proper_of_ofDocuments? (fun d hd j hj => ih d hd hj) hitems)
  | table _ ih =>
    cases n with
    | zero => cases hj
    | succ n =>
      obtain ⟨members, hmembers, hj⟩ := Option.bind_eq_some_iff.1 hj
      obtain rfl := Option.some.inj hj
      exact proper_ofTable (proper_of_ofEntries? (fun e he j hj => ih e he hj) hmembers)

end Casework
