/-!
# Registers

A register holds values that are known by keys of their own, no two by the same key. A value that is
put into it takes the place of the one with its key, or the last place.
-/

namespace Casework

structure Register {α κ : Type} (key : α → κ) where
  entries : List α
  distinct : (entries.map key).Nodup

namespace Register

variable {α κ : Type} {key : α → κ}

def empty : Register key := ⟨[], .nil⟩

variable [DecidableEq κ]

def put (key : α → κ) (a : α) : List α → List α
  | [] => [a]
  | b :: bs => if key b = key a then a :: bs else b :: put key a bs

/-- Putting a value adds its key at most. -/
theorem map_put (a : α) (bs : List α) :
    (put key a bs).map key = if key a ∈ bs.map key then bs.map key else bs.map key ++ [key a] := by
  induction bs with
  | nil => simp [put]
  | cons b bs ih =>
    by_cases h : key b = key a
    · simp [put, h]
    · have hne : key a ≠ key b := fun he => h he.symm
      simp only [put, if_neg h, List.map_cons, ih, List.mem_cons, hne, false_or]
      split <;> simp

theorem nodup_put {a : α} {bs : List α} (h : (bs.map key).Nodup) :
    ((put key a bs).map key).Nodup := by
  rw [map_put]
  split
  · exact h
  · rename_i hnew
    refine List.nodup_append.2 ⟨h, by simp, fun k hk l hl he => hnew ?_⟩
    rw [List.mem_singleton] at hl
    exact hl ▸ he ▸ hk

def insert (r : Register key) (a : α) : Register key := ⟨put key a r.entries, nodup_put r.distinct⟩

def find? (r : Register key) (k : κ) : Option α := r.entries.find? fun a => key a = k

end Register

end Casework
