import Casework.Register
import Mathlib.Data.List.Nodup

/-!
# Looking things up in a register

A value is found by its key once it is put into a register, and what is found by another key is as
it was.
-/

namespace Casework.Register

variable {α κ : Type} {key : α → κ} [DecidableEq κ]

theorem find?_put (a : α) (bs : List α) (k : κ) :
    (put key a bs).find? (fun b => key b = k) =
      if key a = k then some a else bs.find? fun b => key b = k := by
  induction bs with
  | nil =>
    by_cases h : key a = k
    · simp [put, h]
    · simp [put, h]
  | cons b bs ih =>
    by_cases hb : key b = key a
    · by_cases h : key a = k
      · simp [put, hb, h]
      · simp [put, hb, h]
    · by_cases h : key a = k
      · have hne : ¬ key b = k := fun hk => hb (hk.trans h.symm)
        simp [put, h, hne, ih]
      · simp only [put, hb, if_false, List.find?_cons, ih, h]

theorem find?_insert (r : Register key) (a : α) (k : κ) :
    (r.insert a).find? k = if key a = k then some a else r.find? k :=
  find?_put a r.entries k

/-- What is found by a key has it. -/
theorem key_of_find? {r : Register key} {k : κ} {a : α} (h : r.find? k = some a) : key a = k := by
  simpa using List.find?_some h

theorem find?_eq_some_iff {r : Register key} {k : κ} {a : α} :
    r.find? k = some a ↔ a ∈ r.entries ∧ key a = k := by
  refine ⟨fun h => ⟨List.mem_of_find?_eq_some h, key_of_find? h⟩, ?_⟩
  rintro ⟨ha, rfl⟩
  cases hfound : r.find? (key a) with
  | none =>
    have hnone := List.find?_eq_none.1 hfound a ha
    exact absurd (decide_eq_true rfl) hnone
  | some b =>
    have hb : b ∈ r.entries := List.mem_of_find?_eq_some hfound
    rw [List.inj_on_of_nodup_map r.distinct hb ha (key_of_find? hfound)]

/-! ### Registers in which some values are looked at -/

section Filter

variable {p : α → Bool} {a : α} {bs : List α}

/-- To put in a value of the kind is to put it among those of the kind, if it takes the place of no
other. -/
theorem filter_put_of_pos (ha : p a) (hother : ∀ b ∈ bs, ¬ p b → key b ≠ key a) :
    (put key a bs).filter p = put key a (bs.filter p) := by
  induction bs with
  | nil => simp [put, ha]
  | cons b bs ih =>
    have hrest := ih fun c hc => hother c (List.mem_cons_of_mem b hc)
    by_cases hb : key b = key a
    · have hpb : p b := by
        by_contra hpb
        exact hother b List.mem_cons_self hpb hb
      simp [put, hb, ha, hpb]
    · by_cases hpb : p b
      · simp [put, hb, hpb, hrest]
      · simp [put, hb, hpb, hrest]

/-- A value that is not of the kind does not matter to those of the kind, if it takes the place of
none of them. -/
theorem filter_put_of_neg (ha : ¬ p a) (hother : ∀ b ∈ bs, p b → key b ≠ key a) :
    (put key a bs).filter p = bs.filter p := by
  induction bs with
  | nil => simp [put, ha]
  | cons b bs ih =>
    have hrest := ih fun c hc => hother c (List.mem_cons_of_mem b hc)
    by_cases hb : key b = key a
    · have hpb : ¬ p b := fun hpb => hother b List.mem_cons_self hpb hb
      simp [put, hb, ha, hpb]
    · by_cases hpb : p b
      · simp [put, hb, hpb, hrest]
      · simp [put, hb, hpb, hrest]

end Filter

/-! ### Values that are put in one after the other -/

theorem find?_foldl_insert_of_not_mem {as : List α} {r : Register key} {k : κ}
    (h : k ∉ as.map key) : (as.foldl insert r).find? k = r.find? k := by
  induction as generalizing r with
  | nil => rfl
  | cons a as ih =>
    rw [List.map_cons, List.mem_cons, not_or] at h
    rw [List.foldl_cons, ih h.2, find?_insert, if_neg (Ne.symm h.1)]

/-- Of values with distinct keys none takes the place of another. -/
theorem find?_foldl_insert_of_mem {as : List α} {r : Register key} (hdistinct : (as.map key).Nodup)
    {a : α} (ha : a ∈ as) : (as.foldl insert r).find? (key a) = some a := by
  induction as generalizing r with
  | nil => cases ha
  | cons b as ih =>
    obtain ⟨hb, has⟩ := List.nodup_cons.1 hdistinct
    rcases List.mem_cons.1 ha with rfl | ha
    · rw [List.foldl_cons, find?_foldl_insert_of_not_mem hb, find?_insert, if_pos rfl]
    · exact ih has ha

theorem put_of_find? {a : α} {bs : List α}
    (h : bs.find? (fun b => key b = key a) = some a) : put key a bs = bs := by
  induction bs with
  | nil => cases h
  | cons b bs ih =>
    by_cases hb : key b = key a
    · simp only [List.find?_cons, hb, decide_true] at h
      obtain rfl := Option.some.inj h
      rw [put, if_pos rfl]
    · simp only [List.find?_cons, hb, decide_false] at h
      rw [put, if_neg hb, ih h]

/-- To put in what is there changes nothing. -/
theorem insert_of_find? {r : Register key} {a : α} (h : r.find? (key a) = some a) :
    r.insert a = r := by
  obtain ⟨entries, distinct⟩ := r
  rw [insert, mk.injEq]
  exact put_of_find? h

theorem foldl_insert_of_find? {as : List α} {r : Register key}
    (h : ∀ a ∈ as, r.find? (key a) = some a) : as.foldl insert r = r := by
  induction as with
  | nil => rfl
  | cons a as ih =>
    obtain ⟨ha, has⟩ := List.forall_mem_cons.1 h
    rw [List.foldl_cons, insert_of_find? ha, ih has]

/-- What is found once several values have been put in is one of them or was there before. -/
theorem mem_of_find?_foldl_insert {as : List α} {r : Register key} {k : κ} {a : α}
    (h : (as.foldl insert r).find? k = some a) : a ∈ as ∨ r.find? k = some a := by
  induction as generalizing r with
  | nil => exact .inr h
  | cons b as ih =>
    rcases ih h with ha | hr
    · exact .inl (List.mem_cons_of_mem b ha)
    · rw [find?_insert] at hr
      split at hr
      · obtain rfl := Option.some.inj hr
        exact .inl List.mem_cons_self
      · exact .inr hr

theorem isSome_find?_foldl_insert {as : List α} {r : Register key} {k : κ}
    (h : k ∈ as.map key ∨ (r.find? k).isSome) : ((as.foldl insert r).find? k).isSome := by
  induction as generalizing r with
  | nil =>
    rcases h with h | h
    · cases h
    · exact h
  | cons a as ih =>
    refine ih ?_
    rw [find?_insert]
    by_cases hkey : key a = k
    · exact .inr (by rw [if_pos hkey]; rfl)
    · rw [if_neg hkey]
      refine h.imp_left ?_
      intro hmem
      rcases List.mem_cons.1 hmem with hk | hmem
      · exact absurd hk.symm hkey
      · exact hmem

end Casework.Register
