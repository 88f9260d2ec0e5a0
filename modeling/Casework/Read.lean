/-!
# Reading from the front of a list

What a reader hands back: the value it has read and the part of its input that lies behind, with
the fact that this part is shorter. The fact is what lets readers that call each other end.
-/

namespace Casework

/-- A value read from the front of `input`. -/
structure Read {τ : Type} (α : Type) (input : List τ) where
  value : α
  rest : List τ
  shorter : rest.length < input.length

/-- The same, but the value may take up nothing of the input. -/
structure ReadMany {τ : Type} (α : Type) (input : List τ) where
  value : α
  rest : List τ
  notLonger : rest.length ≤ input.length

section

variable {τ : Type} {a : τ} {as : List τ}

theorem length_lt_cons : as.length < (a :: as).length := Nat.lt_succ_self _

theorem length_le_cons : as.length ≤ (a :: as).length := Nat.le_succ _

theorem length_le_append (front : List τ) : as.length ≤ (front ++ as).length := by
  rw [List.length_append]
  exact Nat.le_add_left ..

end

namespace Read

variable {τ α β : Type} {input front : List τ}

/-- A value read behind something else. -/
def after (r : Read α front) (h : front.length ≤ input.length) : Read α input :=
  ⟨r.value, r.rest, Nat.lt_of_lt_of_le r.shorter h⟩

def map (f : α → β) (r : Read α input) : Read β input := ⟨f r.value, r.rest, r.shorter⟩

end Read

namespace ReadMany

variable {τ α β : Type} {input front : List τ}

/-- Nothing taken up. -/
def nothing (value : α) : ReadMany α input := ⟨value, input, Nat.le_refl _⟩

/-- A value read behind something else. -/
def after (r : ReadMany α front) (h : front.length ≤ input.length) : ReadMany α input :=
  ⟨r.value, r.rest, Nat.le_trans r.notLonger h⟩

def map (f : α → β) (r : ReadMany α input) : ReadMany β input := ⟨f r.value, r.rest, r.notLonger⟩

/-- A value read behind at least one item. -/
def toRead (r : ReadMany α front) (h : front.length < input.length) : Read α input :=
  ⟨r.value, r.rest, Nat.lt_of_le_of_lt r.notLonger h⟩

end ReadMany

end Casework
