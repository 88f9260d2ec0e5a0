import Mathlib.Data.List.Nodup
import Casework.Dictionary

/-!
# Looking things up in a dictionary

Of the values that are written to a key the last one is found, and what is written to other keys
does not matter. Entries that are in order already stay as they are, and entries with different keys
may be written in any order.
-/

namespace Casework.Dictionary

variable {α : Type} {key : String} {value : α} {es : List (String × α)}

theorem find?_put (key : String) (value : α) (es : List (String × α)) (k : String) :
    ((put key value es).find? (fun e => e.1 == k)).map Prod.snd =
      if key = k then some value else (es.find? fun e => e.1 == k).map Prod.snd := by
  induction es with
  | nil =>
    by_cases hk : key = k
    · simp [put, hk]
    · simp [put, hk]
  | cons e es ih =>
    rw [put]
    by_cases hlt : key < e.1
    · rw [if_pos hlt]
      by_cases hk : key = k
      · simp [hk]
      · rw [List.find?_cons_of_neg (by simpa using hk), if_neg hk]
    · rw [if_neg hlt]
      by_cases heq : key = e.1
      · rw [if_pos heq]
        by_cases hk : key = k
        · simp [hk]
        · have hne : e.1 ≠ k := heq ▸ hk
          simp [hk, hne]
      · rw [if_neg heq]
        by_cases he : e.1 = k
        · have hk : key ≠ k := he ▸ heq
          simp [he, hk]
        · simp only [List.find?_cons, beq_eq_false_iff_ne.2 he]
          exact ih

theorem get?_insert (d : Dictionary α) (key : String) (value : α) (k : String) :
    (d.insert key value).get? k = if key = k then some value else d.get? k :=
  find?_put key value d.entries k

theorem get?_foldl_of_forall_ne {d : Dictionary α} (h : ∀ e ∈ es, e.1 ≠ key) :
    (es.foldl (fun d e => d.insert e.1 e.2) d).get? key = d.get? key := by
  induction es generalizing d with
  | nil => rfl
  | cons e es ih =>
    rw [List.foldl_cons, ih fun f hf => h f (List.mem_cons_of_mem e hf), get?_insert,
      if_neg (h e List.mem_cons_self)]

/-- What is written to other keys does not matter. -/
theorem get?_ofList_append {front : List (String × α)} (h : ∀ e ∈ es, e.1 ≠ key) :
    (ofList (front ++ es)).get? key = (ofList front).get? key := by
  rw [ofList, List.foldl_append]
  exact get?_foldl_of_forall_ne h

/-- What is written last to a key is found. -/
theorem get?_ofList_of_last (front : List (String × α)) (h : ∀ e ∈ es, e.1 ≠ key) :
    (ofList (front ++ (key, value) :: es)).get? key = some value := by
  rw [ofList, List.foldl_append, List.foldl_cons, get?_foldl_of_forall_ne h, get?_insert, if_pos rfl]

/-- Where only one value is written to a key, this one is found, wherever it stands. -/
theorem get?_ofList_of_mem (front : List (String × α)) (hmem : (key, value) ∈ es)
    (honly : ∀ e ∈ es, e.1 = key → e.2 = value) :
    (ofList (front ++ es)).get? key = some value := by
  induction es generalizing front with
  | nil => exact nomatch hmem
  | cons e es ih =>
    obtain ⟨he, hes⟩ := List.forall_mem_cons.1 honly
    by_cases hlater : (key, value) ∈ es
    · rw [← List.singleton_append, ← List.append_assoc]
      exact ih _ hlater hes
    · obtain rfl := (List.mem_cons.1 hmem).resolve_right hlater
      refine get?_ofList_of_last front fun e he hkey => hlater ?_
      rwa [← hkey, ← hes e he hkey]

/-! ### Entries in order -/

theorem put_of_lt (h : ∀ e ∈ es, e.1 < key) : put key value es = es ++ [(key, value)] := by
  induction es with
  | nil => rfl
  | cons e es ih =>
    have he := h e List.mem_cons_self
    have hnot : ¬ key < e.1 := String.lt_asymm he
    have hne : key ≠ e.1 := by
      rintro rfl
      exact String.lt_irrefl _ he
    rw [put, if_neg hnot, if_neg hne, ih fun f hf => h f (List.mem_cons_of_mem e hf)]
    rfl

theorem entries_foldl {d : Dictionary α} (hes : es.Pairwise fun a b => a.1 < b.1)
    (h : ∀ a ∈ d.entries, ∀ b ∈ es, a.1 < b.1) :
    (es.foldl (fun d e => d.insert e.1 e.2) d).entries = d.entries ++ es := by
  induction es generalizing d with
  | nil => exact (List.append_nil _).symm
  | cons e es ih =>
    obtain ⟨he, hes⟩ := List.pairwise_cons.1 hes
    have hinsert : (d.insert e.1 e.2).entries = d.entries ++ [e] :=
      put_of_lt fun a ha => h a ha e List.mem_cons_self
    rw [List.foldl_cons, ih hes, hinsert, List.append_assoc, List.singleton_append]
    intro a ha b hb
    rw [hinsert] at ha
    rcases List.mem_append.1 ha with ha | ha
    · exact h a ha b (List.mem_cons_of_mem e hb)
    · obtain rfl := List.mem_singleton.1 ha
      exact he b hb

/-- A dictionary of entries in order has these entries. -/
theorem entries_ofList (hes : es.Pairwise fun a b => a.1 < b.1) : (ofList es).entries = es :=
  entries_foldl hes fun _ ha => nomatch ha

theorem find?_of_mem (hes : es.Pairwise fun a b => a.1 < b.1) (h : (key, value) ∈ es) :
    es.find? (fun e => e.1 == key) = some (key, value) := by
  induction es with
  | nil => exact nomatch h
  | cons e es ih =>
    obtain ⟨he, hes⟩ := List.pairwise_cons.1 hes
    rcases List.mem_cons.1 h with rfl | h
    · exact List.find?_cons_of_pos (beq_self_eq_true key)
    · have hne : e.1 ≠ key := fun heq => String.lt_irrefl _ (heq ▸ he _ h)
      rw [List.find?_cons_of_neg (by simpa using hne), ih hes h]

theorem mem_of_mem_foldl {d : Dictionary α} {e : String × α}
    (h : e ∈ (es.foldl (fun d e => d.insert e.1 e.2) d).entries) : e ∈ d.entries ∨ e ∈ es := by
  induction es generalizing d with
  | nil => exact .inl h
  | cons e' es ih =>
    rcases ih h with hput | hes
    · rcases mem_put hput with rfl | hd
      · exact .inr List.mem_cons_self
      · exact .inl hd
    · exact .inr (List.mem_cons_of_mem e' hes)

/-- A dictionary has no entries but those that it is made of. -/
theorem mem_of_mem_ofList {e : String × α} (h : e ∈ (ofList es).entries) : e ∈ es :=
  (mem_of_mem_foldl h).resolve_left List.not_mem_nil

/-- What is found by a key is its entry. -/
theorem get?_eq_some_iff {d : Dictionary α} :
    d.get? key = some value ↔ (key, value) ∈ d.entries := by
  rw [get?, Option.map_eq_some_iff]
  constructor
  · rintro ⟨⟨key', _⟩, hfound, rfl⟩
    obtain rfl : key' = key := by simpa using List.find?_some hfound
    exact List.mem_of_find?_eq_some hfound
  · intro h
    exact ⟨_, find?_of_mem d.ascending h, rfl⟩

theorem pairwise_mergeSort (key : α → String) (as : List α) :
    (as.mergeSort fun a b => key a ≤ key b).Pairwise fun a b => key a ≤ key b := by
  have hsorted : (as.mergeSort fun a b => key a ≤ key b).Pairwise
      fun a b => decide (key a ≤ key b) := by
    refine List.pairwise_mergeSort ?_ ?_ as
    · intro a b c hab hbc
      exact decide_eq_true (String.le_trans (of_decide_eq_true hab) (of_decide_eq_true hbc))
    · intro a b
      simpa using String.le_total (key a) (key b)
  exact hsorted.imp of_decide_eq_true

/-! ### Entries in any order -/

theorem lookup_of_mem {κ : Type} [BEq κ] [LawfulBEq κ] {key : κ} {es : List (κ × α)}
    (hkeys : (es.map Prod.fst).Nodup) (h : (key, value) ∈ es) : es.lookup key = some value := by
  obtain ⟨before, behind, rfl⟩ := List.append_of_mem h
  refine List.lookup_eq_some_iff.2 ⟨before, behind, rfl, fun e he => bne_iff_ne.2 ?_⟩
  rw [List.map_append, List.nodup_append] at hkeys
  exact (hkeys.2.2 e.1 (List.mem_map_of_mem he) key List.mem_cons_self).symm

/-- Of entries with different keys, none is lost. -/
theorem mem_entries_ofList_iff {e : String × α} (hkeys : (es.map Prod.fst).Nodup) :
    e ∈ (ofList es).entries ↔ e ∈ es := by
  constructor
  · exact mem_of_mem_ofList
  · intro he
    have hfound : (ofList ([] ++ es)).get? e.1 = some e.2 := by
      apply get?_ofList_of_mem [] he
      intro e' he' hkey
      rw [List.inj_on_of_nodup_map hkeys he' he hkey]
    exact get?_eq_some_iff.1 hfound

theorem nodup_keys (d : Dictionary α) : (d.entries.map Prod.fst).Nodup := by
  refine List.pairwise_map.2 (d.ascending.imp ?_)
  intro a b hlt heq
  exact String.lt_irrefl _ (heq ▸ hlt)

/-- A dictionary can be made of its entries in any order. -/
theorem ofList_of_perm {d : Dictionary α} (h : es.Perm d.entries) : ofList es = d := by
  have hkeys : (es.map Prod.fst).Nodup := (h.map Prod.fst).nodup_iff.2 d.nodup_keys
  have hentries : (ofList es).entries.Perm d.entries := by
    refine (List.perm_ext_iff_of_nodup (.of_map _ (nodup_keys _)) (.of_map _ d.nodup_keys)).2 ?_
    intro e
    rw [mem_entries_ofList_iff hkeys, h.mem_iff]
  have heq : (ofList es).entries = d.entries := by
    refine hentries.eq_of_pairwise ?_ (ofList es).ascending d.ascending
    intro a b _ _ hab hba
    exact absurd hba (String.lt_asymm hab)
  cases d
  cases hlist : ofList es
  rw [hlist] at heq
  cases heq
  rfl

end Casework.Dictionary
