import Casework.Proofs.Text.Sigma

/-!
# The case of ASCII letters

Making a text small does away with the case of its ASCII letters, and nothing else in the text is
made small in another way on account of that case. So it may be dropped beforehand.
-/

namespace Casework.Text

namespace Casing

variable {before behind cs : List Char}

/-- Below a bound those ranges do not count that begin above it. -/
theorem inRanges_filter {bound n : Nat} (ranges : List (Nat × Nat)) (hn : n < bound) :
    inRanges (ranges.filter fun r => r.1 < bound) n = inRanges ranges n := by
  rw [inRanges, inRanges, List.any_filter]
  congr 1
  funext r
  by_cases hr : r.1 < bound
  · simp [hr]
  · have hout : ¬ r.1 ≤ n := by omega
    simp [hr, hout]

theorem isCased_ascii (c : Char) (h : c.toNat < 128) :
    isCased c = inRanges [(0x41, 0x5A), (0x61, 0x7A)] c.toNat := by
  have hranges : (casedRanges.filter fun r => r.1 < 128) = [(0x41, 0x5A), (0x61, 0x7A)] := by
    decide +kernel
  rw [isCased, ← inRanges_filter casedRanges h, hranges]

theorem isIgnorable_ascii (c : Char) (h : c.toNat < 128) : isIgnorable c =
    inRanges [(0x27, 0x27), (0x2E, 0x2E), (0x3A, 0x3A), (0x5E, 0x5E), (0x60, 0x60)] c.toNat := by
  have hranges : (ignorableRanges.filter fun r => r.1 < 128) =
      [(0x27, 0x27), (0x2E, 0x2E), (0x3A, 0x3A), (0x5E, 0x5E), (0x60, 0x60)] := by decide +kernel
  rw [isIgnorable, ← inRanges_filter ignorableRanges h, hranges]

theorem toLower_cases (c : Char) : c.toLower = c ∨ c.toNat < 128 := by
  unfold Char.toLower
  split
  · rename_i hcapital
    exact .inr (Nat.lt_of_le_of_lt hcapital.2 (by decide))
  · exact .inl rfl

/-- What does not tell large ASCII letters from small ones cannot see a change of their case. -/
theorem apply_toLower {α : Type} {f g : Char → α} (hg : ∀ c : Char, c.toNat < 128 → f c = g c)
    (h : ∀ n < 128, g (Char.ofNat n).toLower = g (Char.ofNat n)) (c : Char) :
    f c.toLower = f c := by
  have hascii : ∀ n < 128, (Char.ofNat n).toLower.toNat < 128 := by decide
  rcases toLower_cases c with hsame | hc
  · rw [hsame]
  · have hc' := hascii c.toNat hc
    have hsmall := h c.toNat hc
    rw [Char.ofNat_toNat] at hc' hsmall
    rw [hg c hc, hg _ hc', hsmall]

theorem isCased_toLower (c : Char) : isCased c.toLower = isCased c :=
  apply_toLower isCased_ascii (by decide) c

theorem isIgnorable_toLower (c : Char) : isIgnorable c.toLower = isIgnorable c :=
  apply_toLower isIgnorable_ascii (by decide) c

theorem lowerChar_toLower (c : Char) : lowerChar c.toLower = lowerChar c :=
  apply_toLower (fun _ _ => rfl) (by decide) c

theorem toLower_eq_iff {d : Char} (hd : 128 ≤ d.toNat) (c : Char) : c.toLower = d ↔ c = d := by
  have hascii (c : Char) (hc : c.toNat < 128) : (c == d) = false := by
    rw [beq_eq_false_iff_ne]
    intro heq
    rw [heq] at hc
    omega
  have hsame := apply_toLower hascii (fun _ _ => rfl) c
  rw [← beq_iff_eq, hsame, beq_iff_eq]

theorem nearest?_map (cs : List Char) :
    nearest? (cs.map Char.toLower) = (nearest? cs).map Char.toLower := by
  have hignorable : isIgnorable ∘ Char.toLower = isIgnorable := funext isIgnorable_toLower
  rw [nearest?, nearest?, List.dropWhile_map, hignorable, List.head?_map]

theorem startsCased_map (cs : List Char) : startsCased (cs.map Char.toLower) = startsCased cs := by
  rw [startsCased_eq, startsCased_eq, nearest?_map]
  cases nearest? cs with
  | none => rfl
  | some c => exact isCased_toLower c

theorem lowered_map (before behind : List Char) (c : Char) :
    lowered (before.map Char.toLower) (behind.map Char.toLower) c.toLower =
      lowered before behind c := by
  have hsigma : c.toLower = 'Σ' ↔ c = 'Σ' := toLower_eq_iff (by decide) c
  have hdotted : c.toLower = 'İ' ↔ c = 'İ' := toLower_eq_iff (by decide) c
  rw [lowered, lowered, endsWord, endsWord, startsCased_map, startsCased_map, lowerChar_toLower]
  by_cases h : c = 'Σ'
  · rw [if_pos (hsigma.2 h), if_pos h]
  · rw [if_neg (mt hsigma.1 h), if_neg h]
    by_cases h' : c = 'İ'
    · rw [if_pos (hdotted.2 h'), if_pos h']
    · rw [if_neg (mt hdotted.1 h'), if_neg h']

/-- The lower case of a text does not depend on the case of its ASCII letters. -/
theorem lowerBehind_map (before cs : List Char) :
    lowerBehind (before.map Char.toLower) (cs.map Char.toLower) = lowerBehind before cs := by
  induction cs generalizing before with
  | nil => rfl
  | cons c cs ih =>
    rw [List.map_cons, lowerBehind_cons, lowerBehind_cons, lowered_map, ← List.map_cons, ih]

theorem Settled.map (h : Settled before behind) :
    Settled (before.map Char.toLower) (behind.map Char.toLower) := by
  cases h with
  | uncasedBefore h hc =>
    refine .uncasedBefore ?_ ((isCased_toLower _).trans hc)
    rw [nearest?_map, h, Option.map_some]
  | casedBehind h hc =>
    refine .casedBehind ?_ ((isCased_toLower _).trans hc)
    rw [nearest?_map, h, Option.map_some]
  | between hbefore hbehind =>
    apply Settled.between
    · rw [nearest?_map, hbefore, Option.map_some]
    · rw [nearest?_map, hbehind, Option.map_some]

theorem SigmasSettled.map (h : SigmasSettled cs) : SigmasSettled (cs.map Char.toLower) := by
  intro front back hcs
  obtain ⟨front', others, rfl, rfl, hothers⟩ := List.map_eq_append_iff.1 hcs
  obtain ⟨c, back', rfl, hc, rfl⟩ := List.map_eq_cons_iff.1 hothers
  rw [toLower_eq_iff (by decide)] at hc
  subst hc
  rw [← List.map_reverse]
  exact (h front' back' rfl).map

end Casing

end Casework.Text
