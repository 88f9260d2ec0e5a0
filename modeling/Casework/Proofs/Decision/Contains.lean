import Casework.Decision.Evaluate
import Casework.Proofs.Text.Ascii
import Mathlib.Data.List.Infix
import Mathlib.Tactic.ByContra

/-!
# What `contains` finds

A value that stands in a cell is looked for in the lower case of the whole cell, in which its capital
sigmas may have got other forms than in the value alone. If these are settled the value is found in
every cell in which it stands, ASCII letters being large or small; if not, there is a cell in which
it is missed. Where `equals` holds, `contains` does too.
-/

namespace Casework

namespace Text

open Casing

variable {part whole : String} {x : Char}

/-! ### Occurrences -/

/-- The characters of a text with small ASCII letters. -/
def folded (s : String) : List Char := s.toList.map Char.toLower

/-- The part stands in the text, the case of ASCII letters not counted. -/
def Occurs (part whole : String) : Prop := folded part <:+: folded whole

theorem occursIn_iff {part cs : List Char} : occursIn part cs = true ↔ part <:+: cs := by
  induction cs with
  | nil => rw [occursIn, List.isEmpty_iff, List.infix_nil]
  | cons c cs ih =>
    rw [occursIn, Bool.or_eq_true, ih, List.isPrefixOf_iff_prefix, List.infix_cons_iff]

theorem lower_eq (s : String) : lower s = lowerBetween [] [] s.toList := lowerBehind_eq [] s.toList

theorem lower_eq_folded (s : String) : lower s = lowerBetween [] [] (folded s) := by
  rw [← lowerBehind_eq]
  exact (lowerBehind_map [] s.toList).symm

/-- An occurrence is found if it keeps the sigmas of the part. -/
theorem contains_of_keepsSigmas {front behind : List Char}
    (hwhole : folded whole = front ++ (folded part ++ behind))
    (h : KeepsSigmas front.reverse behind (folded part)) :
    containsIgnoringCase whole part = true := by
  have hlower : lower whole = lowerBetween [] (folded part ++ behind) front ++
      (lower part ++ lowerBetween ((folded part).reverse ++ front.reverse) [] behind) := by
    rw [lower_eq_folded whole, hwhole, lowerBetween_append, lowerBetween_append,
      lower_eq_folded part, ← lowerBetween_eq_iff.2 h]
    simp only [List.append_nil]
  rw [containsIgnoringCase, occursIn_iff, hlower]
  exact List.infix_append' ..

theorem contains_of_settled (h : SigmasSettled part.toList) (hoccurs : Occurs part whole) :
    containsIgnoringCase whole part = true := by
  obtain ⟨front, behind, hwhole⟩ := hoccurs
  rw [List.append_assoc] at hwhole
  exact contains_of_keepsSigmas hwhole.symm (h.map.keepsSigmas _ _)

theorem contains_of_sameIgnoringCase (h : sameIgnoringCase whole part = true) :
    containsIgnoringCase whole part = true := by
  rw [containsIgnoringCase, occursIn_iff, beq_iff_eq.1 h]

/-! ### Missed occurrences -/

/-- With one more character at the front there are two places for a list, and it stands at
neither. -/
theorem not_infix_cons {us vs : List Char} (hlength : us.length = vs.length) (hne : us ≠ vs)
    (hhead : us.head? ≠ some x) : ¬ us <:+: x :: vs := by
  intro hinfix
  rcases List.infix_cons_iff.1 hinfix with hprefix | hlater
  · rcases List.prefix_cons_iff.1 hprefix with rfl | ⟨us', rfl, -⟩
    · exact hne (List.length_eq_zero_iff.1 hlength.symm).symm
    · exact hhead rfl
  · exact hne (hlater.eq_of_length hlength)

theorem not_infix_concat {us vs : List Char} (hlength : us.length = vs.length) (hne : us ≠ vs)
    (hlast : us.getLast? ≠ some x) : ¬ us <:+: vs ++ [x] := by
  rw [← List.reverse_infix, List.reverse_concat]
  apply not_infix_cons
  · rwa [List.length_reverse, List.length_reverse]
  · exact fun heq => hne (List.reverse_injective heq)
  · rwa [List.head?_reverse]

theorem lower_letter_before (hx : IsLetter x) (cs : List Char) :
    lower (String.ofList (x :: cs)) = x :: lowerBetween [x] [] cs := by
  rw [lower_eq, String.toList_ofList, lowerBetween, hx.lowered, List.singleton_append]

theorem lower_letter_behind (hx : IsLetter x) (cs : List Char) :
    lower (String.ofList (cs ++ [x])) = lowerBetween [] [x] cs ++ [x] := by
  rw [lower_eq, String.toList_ofList, lowerBetween_append, lowerBetween, lowerBetween, hx.lowered]
  rfl

/-- One letter before the part or behind it is enough, if it is not itself the one with which the
part begins or ends. -/
theorem exists_missed (h : ¬ SigmasSettled part.toList) :
    ∃ whole, Occurs part whole ∧ containsIgnoringCase whole part = false := by
  rcases not_keepsSigmas h with hbefore | hbehind
  · obtain ⟨x, hx, hhead⟩ := exists_letter (lower part).head?
    refine ⟨String.ofList (x :: part.toList), ?_, ?_⟩
    · rw [Occurs, folded, folded, String.toList_ofList, List.map_cons]
      exact (List.suffix_cons _ _).isInfix
    · rw [containsIgnoringCase, Bool.eq_false_iff, ne_eq, occursIn_iff, lower_letter_before hx]
      rw [lower_eq] at hhead ⊢
      refine not_infix_cons (length_lowerBetween ..) ?_ hhead
      exact fun heq => hbefore x hx (lowerBetween_eq_iff.1 heq.symm)
  · obtain ⟨x, hx, hlast⟩ := exists_letter (lower part).getLast?
    refine ⟨String.ofList (part.toList ++ [x]), ?_, ?_⟩
    · rw [Occurs, folded, folded, String.toList_ofList, List.map_append]
      exact (List.prefix_append _ _).isInfix
    · rw [containsIgnoringCase, Bool.eq_false_iff, ne_eq, occursIn_iff, lower_letter_behind hx]
      rw [lower_eq] at hlast ⊢
      refine not_infix_concat (length_lowerBetween ..) ?_ hlast
      exact fun heq => hbehind x hx (lowerBetween_eq_iff.1 heq.symm)

end Text

namespace Condition

/-- The value is found in all cells in which it stands just if its capital sigmas are settled.
Otherwise it is still found where they have the same forms. What equals the value contains it. -/
theorem contains_finds_iff (c : Condition) :
    ((∀ cell, Text.Occurs c.value cell → { c with operator := .contains }.holdsOf cell = true) ↔
      Text.Casing.SigmasSettled c.value.toList) ∧
    (∀ cell front behind, Text.folded cell = front ++ (Text.folded c.value ++ behind) →
      Text.Casing.KeepsSigmas front.reverse behind (Text.folded c.value) →
      { c with operator := .contains }.holdsOf cell = true) ∧
    ∀ cell, { c with operator := .equals }.holdsOf cell = true →
      { c with operator := .contains }.holdsOf cell = true := by
  refine ⟨⟨?_, ?_⟩, ?_, ?_⟩
  · intro hfound
    by_contra hopen
    obtain ⟨cell, hoccurs, hmissed⟩ := Text.exists_missed hopen
    exact Bool.false_ne_true (hmissed.symm.trans (hfound cell hoccurs))
  · intro hsettled cell hoccurs
    exact Text.contains_of_settled hsettled hoccurs
  · intro cell front behind hcell hkeeps
    exact Text.contains_of_keepsSigmas hcell hkeeps
  · intro cell hequals
    exact Text.contains_of_sameIgnoringCase hequals

/-- A street and a number: the sigma at the end of the word stands before a blank. -/
theorem contains_finds_iff_street :
    Text.Casing.SigmasSettled "ΟΔΟΣ 5".toList ∧ Text.Occurs "ΟΔΟΣ 5" "a ΟΔΟΣ 5" ∧
      holdsOf ⟨"address", .contains, "ΟΔΟΣ 5", none⟩ "a ΟΔΟΣ 5" = true := by
  have hletters : "ΟΔΟΣ 5".toList = ['Ο', 'Δ', 'Ο', 'Σ', ' ', '5'] := rfl
  have hbefore : Text.Casing.nearest? ['Ο', 'Δ', 'Ο'] = some 'Ο' := by decide +kernel
  have hbehind : Text.Casing.nearest? [' ', '5'] = some ' ' := by decide +kernel
  have hsettled : Text.Casing.SigmasSettled "ΟΔΟΣ 5".toList := by
    rw [hletters, Text.Casing.sigmasSettled_iff]
    intro i hi
    obtain rfl : i = 3 := by
      revert i
      decide
    exact .between hbefore hbehind
  have hoccurs : Text.Occurs "ΟΔΟΣ 5" "a ΟΔΟΣ 5" := ⟨['a', ' '], [], rfl⟩
  have hfinds := contains_finds_iff ⟨"address", .contains, "ΟΔΟΣ 5", none⟩
  exact ⟨hsettled, hoccurs, hfinds.1.2 hsettled _ hoccurs⟩

/-- A sigma alone is no end of a word, so that it is not found at one. -/
theorem contains_misses_sigma :
    Text.Occurs "Σ" "ΑΣ" ∧ holdsOf ⟨"name", .contains, "Σ", none⟩ "ΑΣ" = false := by
  refine ⟨⟨['Α'], [], rfl⟩, ?_⟩
  have hcell : Text.lower "ΑΣ" = ['α', 'ς'] := by decide +kernel
  have hvalue : Text.lower "Σ" = ['σ'] := by decide +kernel
  show Text.occursIn (Text.lower "Σ") (Text.lower "ΑΣ") = false
  rw [hcell, hvalue]
  rfl

end Condition

end Casework
