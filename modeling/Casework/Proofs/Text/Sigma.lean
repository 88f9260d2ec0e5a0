import Mathlib.Tactic.Push
import Casework.Text.Casing

/-!
# Lower case in the middle of a text

What stands around a part of a text has a say in its lower case, but only in the forms of its
capital sigmas. A capital sigma is settled if the other characters of the part leave nothing to be
decided: a part has the same lower case wherever it stands just if all its capital sigmas are
settled.
-/

namespace Casework.Text

namespace Casing

variable {before behind front back cs : List Char} {c x : Char}

/-! ### Between other characters -/

/-- A capital sigma between these stands at the end of a word. -/
def endsWord (before behind : List Char) : Bool := startsCased before && !startsCased behind

def lowered (before behind : List Char) (c : Char) : List Char :=
  if c = 'Σ' then [if endsWord before behind then 'ς' else 'σ']
  else if c = 'İ' then ['i', '\u0307']
  else [lowerChar c]

/-- The lower case of the characters `cs` of a text: those of `before`, last one first, stand before
them and those of `behind` after them. -/
def lowerBetween (before behind : List Char) : List Char → List Char
  | [] => []
  | c :: cs => lowered before (cs ++ behind) c ++ lowerBetween (c :: before) behind cs

theorem lowerBehind_cons : lowerBehind before (c :: cs) =
    lowered before cs c ++ lowerBehind (c :: before) cs := rfl

theorem lowerBehind_eq (before cs : List Char) :
    lowerBehind before cs = lowerBetween before [] cs := by
  induction cs generalizing before with
  | nil => rfl
  | cons c cs ih => rw [lowerBehind_cons, lowerBetween, ih, List.append_nil]

theorem lowerBetween_append (before behind front cs : List Char) :
    lowerBetween before behind (front ++ cs) =
      lowerBetween before (cs ++ behind) front ++
        lowerBetween (front.reverse ++ before) behind cs := by
  induction front generalizing before with
  | nil => rfl
  | cons c front ih =>
    rw [List.cons_append, lowerBetween, lowerBetween, ih, List.reverse_cons, List.append_assoc,
      List.append_assoc, List.append_assoc, List.singleton_append]

/-- No form is longer than the other. -/
theorem length_lowerBetween (before behind before' behind' cs : List Char) :
    (lowerBetween before behind cs).length = (lowerBetween before' behind' cs).length := by
  induction cs generalizing before before' with
  | nil => rfl
  | cons c cs ih =>
    have hhead (u v : List Char) : (lowered u v c).length = if c = 'İ' then 2 else 1 := by
      rw [lowered]
      split
      · subst c
        rfl
      · split <;> rfl
    rw [lowerBetween, lowerBetween, List.length_append, List.length_append, hhead, hhead, ih]

/-! ### The forms of capital sigmas -/

/-- All capital sigmas of `cs` have the forms between `before` and `behind` that they have in `cs`
alone. -/
def KeepsSigmas (before behind cs : List Char) : Prop :=
  ∀ front back, cs = front ++ 'Σ' :: back →
    endsWord (front.reverse ++ before) (back ++ behind) = endsWord front.reverse back

/-- By induction on the characters, which go over one by one to those before. -/
theorem lowerBetween_congr {before' behind' : List Char}
    (h : ∀ front back, cs = front ++ 'Σ' :: back →
      endsWord (front.reverse ++ before) (back ++ behind) =
        endsWord (front.reverse ++ before') (back ++ behind')) :
    lowerBetween before behind cs = lowerBetween before' behind' cs := by
  induction cs generalizing before before' with
  | nil => rfl
  | cons c cs ih =>
    have hhead : lowered before (cs ++ behind) c = lowered before' (cs ++ behind') c := by
      by_cases hc : c = 'Σ'
      · have hform := h [] cs (by rw [hc, List.nil_append])
        rw [List.reverse_nil, List.nil_append, List.nil_append] at hform
        rw [lowered, lowered, hform]
      · rw [lowered, lowered, if_neg hc, if_neg hc]
    rw [lowerBetween, lowerBetween, hhead]
    congr 1
    apply ih
    intro front back hcs
    have hform := h (c :: front) back (by rw [hcs, List.cons_append])
    rwa [List.reverse_cons, List.append_assoc, List.append_assoc] at hform

theorem keepsSigmas_of_lowerBetween
    (h : lowerBetween before behind cs = lowerBetween [] [] cs) : KeepsSigmas before behind cs := by
  intro front back hcs
  subst hcs
  rw [lowerBetween_append, lowerBetween_append, lowerBetween, lowerBetween, List.append_nil,
    List.append_nil] at h
  -- The parts before the sigma are of one length, so that the sigmas stand in the same place.
  obtain ⟨-, hsigma⟩ := List.append_inj h (length_lowerBetween ..)
  have hform := (List.append_inj hsigma rfl).1
  rw [lowered, lowered, if_pos rfl, if_pos rfl, List.append_nil] at hform
  cases hout : endsWord (front.reverse ++ before) (back ++ behind) <;>
    cases hin : endsWord front.reverse back <;> simp [hout, hin] at hform ⊢

theorem lowerBetween_eq_iff :
    lowerBetween before behind cs = lowerBetween [] [] cs ↔ KeepsSigmas before behind cs := by
  constructor
  · exact keepsSigmas_of_lowerBetween
  · intro h
    apply lowerBetween_congr
    intro front back hcs
    rw [h front back hcs, List.append_nil, List.append_nil]

/-! ### Settled sigmas -/

/-- The first character that is not passed over. -/
def nearest? (cs : List Char) : Option Char := (cs.dropWhile isIgnorable).head?

theorem startsCased_eq (cs : List Char) : startsCased cs = (nearest? cs).any isCased := rfl

theorem nearest?_append (front cs : List Char) :
    nearest? (front ++ cs) = (nearest? front).or (nearest? cs) := by
  rw [nearest?, nearest?, List.dropWhile_append]
  cases front.dropWhile isIgnorable with
  | nil => rfl
  | cons c front => rfl

/-- Between these characters, `before` with the last one first, a capital sigma has the same form
whatever stands around them. -/
inductive Settled (before behind : List Char) : Prop
  | uncasedBefore {c : Char} (h : nearest? before = some c) (hc : isCased c = false)
  | casedBehind {c : Char} (h : nearest? behind = some c) (hc : isCased c = true)
  | between {c d : Char} (hbefore : nearest? before = some c) (hbehind : nearest? behind = some d)

/-- In every text with these characters in it, their capital sigmas have the same forms. -/
def SigmasSettled (cs : List Char) : Prop :=
  ∀ front back, cs = front ++ 'Σ' :: back → Settled front.reverse back

theorem sigmasSettled_iff : SigmasSettled cs ↔
    ∀ i : Fin cs.length, cs[i] = 'Σ' → Settled (cs.take i).reverse (cs.drop (i + 1)) := by
  constructor
  · intro h i hi
    apply h
    rw [← hi, Fin.getElem_fin, List.getElem_cons_drop, List.take_append_drop]
  · intro h front back hcs
    subst hcs
    have hsettled := h ⟨front.length, by simp⟩ (by simp)
    simpa using hsettled

theorem Settled.endsWord_append (h : Settled before behind) (u v : List Char) :
    endsWord (before ++ u) (behind ++ v) = endsWord before behind := by
  simp only [endsWord, startsCased_eq, nearest?_append]
  cases h with
  | uncasedBefore h hc => simp [h, hc]
  | casedBehind h hc => simp [h, hc]
  | between hbefore hbehind => rw [hbefore, hbehind, Option.some_or, Option.some_or]

theorem SigmasSettled.keepsSigmas (h : SigmasSettled cs) (before behind : List Char) :
    KeepsSigmas before behind cs := by
  intro front back hcs
  exact (h front back hcs).endsWord_append before behind

/-- Nothing before the sigma decides, or nothing behind it, although it would matter. -/
theorem open_of_not_settled (h : ¬ Settled before behind) :
    nearest? before = none ∧ startsCased behind = false ∨
      startsCased before = true ∧ nearest? behind = none := by
  rw [startsCased_eq, startsCased_eq]
  cases hbefore : nearest? before with
  | none =>
    refine .inl ⟨rfl, ?_⟩
    cases hbehind : nearest? behind with
    | none => rfl
    | some c => exact Bool.eq_false_iff.2 fun hc => h (.casedBehind hbehind hc)
  | some c =>
    refine .inr ⟨?_, ?_⟩
    · exact Bool.not_eq_false _ ▸ fun hc => h (.uncasedBefore hbefore hc)
    · cases hbehind : nearest? behind with
      | none => rfl
      | some d => exact absurd (.between hbefore hbehind) h

/-- A small letter, which decides on any sigma that is open on its side. -/
structure IsLetter (x : Char) : Prop where
  nearest : nearest? [x] = some x
  cased : isCased x = true
  lowered : ∀ before behind, lowered before behind x = [x]

theorem IsLetter.startsCased (hx : IsLetter x) : startsCased [x] = true := by
  rw [startsCased_eq, hx.nearest, Option.any_some, hx.cased]

/-- Next to a letter an open sigma has the other form, on one side of the characters or on the
other. -/
theorem not_keepsSigmas (h : ¬ SigmasSettled cs) :
    (∀ x, IsLetter x → ¬ KeepsSigmas [x] [] cs) ∨ ∀ x, IsLetter x → ¬ KeepsSigmas [] [x] cs := by
  rw [SigmasSettled] at h
  push Not at h
  obtain ⟨front, back, hcs, hopen⟩ := h
  rcases open_of_not_settled hopen with ⟨hbefore, hbehind⟩ | ⟨hbefore, hbehind⟩
  · refine .inl fun x hx hkeeps => ?_
    have hform := hkeeps front back hcs
    have hinside : startsCased (front.reverse ++ [x]) = true := by
      rw [startsCased_eq, nearest?_append, hbefore, Option.none_or, ← startsCased_eq,
        hx.startsCased]
    have halone : startsCased front.reverse = false := by
      rw [startsCased_eq, hbefore, Option.any_none]
    rw [endsWord, endsWord, List.append_nil, hinside, halone, hbehind] at hform
    cases hform
  · refine .inr fun x hx hkeeps => ?_
    have hform := hkeeps front back hcs
    have hinside : startsCased (back ++ [x]) = true := by
      rw [startsCased_eq, nearest?_append, hbehind, Option.none_or, ← startsCased_eq,
        hx.startsCased]
    have halone : startsCased back = false := by rw [startsCased_eq, hbehind, Option.any_none]
    rw [endsWord, endsWord, List.append_nil, hbefore, hinside, halone] at hform
    cases hform

/-- Whatever a text begins or ends with, there is a letter with which it does not. -/
theorem exists_letter (o : Option Char) : ∃ x, IsLetter x ∧ o ≠ some x := by
  have ha : IsLetter 'a' := ⟨by decide +kernel, by decide +kernel, fun _ _ => rfl⟩
  have hb : IsLetter 'b' := ⟨by decide +kernel, by decide +kernel, fun _ _ => rfl⟩
  by_cases h : o = some 'a'
  · refine ⟨'b', hb, ?_⟩
    rw [h]
    decide
  · exact ⟨'a', ha, h⟩

end Casing

end Casework.Text
