import Casework.Proofs.Json.Numeral

/-!
# JSON text is read back

Every value without fractions whose whole numbers fit into 64 bits is read back from its compact
text, whatever follows inside the value around it. By induction on the value.
-/

namespace Casework.Json

variable {α β : Type} {cs us rest : List Char}

/-! ### The readers of values -/

theorem readValue_quoted (s : String) : Reads (readValue (quoted s ++ rest)) (.text s) rest := by
  obtain ⟨pieces, hread, htext⟩ := readPieces_text s rest
  rw [quoted, List.cons_append, List.append_assoc, readValue, ← htext]
  exact hread.map_after textOf _

/-- The values of a list are read up to its end: this is the last one, or others follow. -/
theorem readItems_cons {d : Document} {ds : List Document} {mid : List Char}
    (h : Reads (readValue (skipSpaces us)) d mid)
    (hmid : (mid = ']' :: rest ∧ ds = []) ∨ ∃ vs, mid = ',' :: vs ∧ Reads (readItems vs) ds rest) :
    Reads (readItems us) (d :: ds) rest := by
  obtain ⟨hshorter, h⟩ := h
  rw [readItems, h]
  rcases hmid with ⟨rfl, rfl⟩ | ⟨vs, rfl, hmore⟩
  · exact ⟨_, rfl⟩
  · exact hmore.map_after (d :: ·) _

theorem readMembers_cons {name : String} {d : Document} {ms : List (Document × Document)}
    {mid vs : List Char}
    (hvalue : Reads (readValue (skipSpaces vs)) d mid)
    (hmid : (mid = '\x7d' :: rest ∧ ms = []) ∨
      ∃ vs, mid = ',' :: vs ∧ Reads (readMembers vs) ms rest) :
    Reads (readMembers (quoted name ++ ':' :: vs)) ((.text name, d) :: ms) rest := by
  obtain ⟨pieces, ⟨hcolon, hname⟩, htext⟩ := readPieces_text name (':' :: vs)
  obtain ⟨hshorter, hvalue⟩ := hvalue
  rw [quoted, List.cons_append, List.append_assoc, List.singleton_append, readMembers, ← htext]
  split
  · rename_i nameText heq
    obtain rfl := (List.cons.inj heq).2
    rw [hname]
    simp only [Option.bind_eq_bind, Option.bind_some]
    split
    · rename_i valueText heq
      obtain rfl := (List.cons.inj heq).2
      rw [hvalue]
      rcases hmid with ⟨rfl, rfl⟩ | ⟨vs, rfl, hmore⟩
      · exact ⟨_, rfl⟩
      · exact hmore.map_after ((textOf pieces, d) :: ·) _
    · rename_i hne
      exact absurd rfl (hne vs)
  · rename_i hne
    exact absurd rfl (hne _)

theorem readValue_array (hspace : skipSpaces us = us) (hhead : ∀ c ∈ us.head?, c ≠ ']')
    {ds : List Document} (h : Reads (readItems us) ds rest) :
    Reads (readValue ('[' :: us)) (.list ds) rest := by
  rw [readValue]
  split
  · rename_i behind heq
    rw [hspace] at heq
    exact absurd rfl (hhead ']' (by rw [heq]; rfl))
  · exact h.map_after Document.list _

theorem readValue_object (hspace : skipSpaces us = us) (hhead : ∀ c ∈ us.head?, c ≠ '\x7d')
    {ms : List (Document × Document)} (h : Reads (readMembers us) ms rest) :
    Reads (readValue ('\x7b' :: us)) (.table ms) rest := by
  rw [readValue]
  split
  · rename_i behind heq
    rw [hspace] at heq
    exact absurd rfl (hhead '\x7d' (by rw [heq]; rfl))
  · exact h.map_after Document.table _

/-! ### All values -/

mutual

/-- The value with other fractions in it. -/
def mapReals (f : Double → Double) : Json → Json
  | .null => .null
  | .bool b => .bool b
  | .int i => .int i
  | .real x => .real (f x)
  | .text s => .text s
  | .array items => .array (mapRealsItems f items)
  | .object members => .object (mapRealsMembers f members)

def mapRealsItems (f : Double → Double) : List Json → List Json
  | [] => []
  | j :: js => j.mapReals f :: mapRealsItems f js

def mapRealsMembers (f : Double → Double) : List (String × Json) → List (String × Json)
  | [] => []
  | (name, j) :: ms => (name, j.mapReals f) :: mapRealsMembers f ms

end

theorem mapRealsItems_eq (f : Double → Double) (items : List Json) :
    mapRealsItems f items = items.map (mapReals f) := by
  induction items with
  | nil => rfl
  | cons j js ih => rw [mapRealsItems, ih, List.map_cons]

theorem mapRealsMembers_eq (f : Double → Double) (members : List (String × Json)) :
    mapRealsMembers f members = members.map fun m => (m.1, m.2.mapReals f) := by
  induction members with
  | nil => rfl
  | cons m ms ih => rw [mapRealsMembers, ih, List.map_cons]

/-- What is written of the first fraction is read as the second one, whatever follows. -/
structure RereadAs (x y : Double) : Prop where
  head : ∃ c cs, x.scientific.toList = c :: cs ∧ (c.isDigit = true ∨ c = '-')
  read : ∀ ⦃rest⦄, Follows rest → Reads (readValue (x.scientific.toList ++ rest)) (.real y) rest

/-- Whole numbers fit into 64 bits, and `f` is what becomes of a fraction when it is read again. -/
inductive Legible (f : Double → Double) : Json → Prop
  | null : Legible f .null
  | bool (b : Bool) : Legible f (.bool b)
  | int {i : Int} (hlow : -(twoTo 63 : Int) ≤ i) (hhigh : i < twoTo 64) : Legible f (.int i)
  | real {x : Double} (h : RereadAs x (f x)) : Legible f (.real x)
  | text (s : String) : Legible f (.text s)
  | array {items : List Json} (h : ∀ j ∈ items, Legible f j) : Legible f (.array items)
  | object {members : List (String × Json)} (h : ∀ m ∈ members, Legible f m.2) :
      Legible f (.object members)

theorem isSpace_of_number {c : Char} (hc : c.isDigit = true ∨ c = '-') :
    isSpace c = false ∧ c ≠ ']' := by
  rcases hc with hc | rfl
  · refine ⟨?_, ?_⟩
    · cases hspace : isSpace c with
      | false => rfl
      | true =>
        simp only [isSpace, Bool.or_eq_true, beq_iff_eq] at hspace
        rcases hspace with ((rfl | rfl) | rfl) | rfl <;> exact absurd hc (by decide)
    · rintro rfl
      exact absurd hc (by decide)
  · exact ⟨rfl, by decide⟩

variable {f : Double → Double}

/-- No value begins with a blank or a closing bracket. -/
theorem Legible.head {j : Json} (h : Legible f j) :
    ∃ c cs, j.compactChars = c :: cs ∧ isSpace c = false ∧ c ≠ ']' := by
  cases h with
  | null => exact ⟨'n', _, rfl, rfl, by decide⟩
  | bool b => cases b <;> exact ⟨_, _, rfl, rfl, by decide⟩
  | int hlow hhigh =>
    obtain ⟨c, cs, hchars, hc⟩ := (formed_ofInt _).signedChars_cons
    exact ⟨c, cs, (intChars_eq _).trans hchars, isSpace_of_number hc⟩
  | real h =>
    obtain ⟨c, cs, hchars, hc⟩ := h.head
    exact ⟨c, cs, hchars, isSpace_of_number hc⟩
  | text s => exact ⟨'"', _, rfl, rfl, by decide⟩
  | array h => exact ⟨'[', _, by rw [compactChars], rfl, by decide⟩
  | object h => exact ⟨'\x7b', _, by rw [compactChars], rfl, by decide⟩

theorem Legible.skipSpaces_append {j : Json} (h : Legible f j) (us : List Char) :
    skipSpaces (j.compactChars ++ us) = j.compactChars ++ us := by
  obtain ⟨c, cs, hj, hspace, -⟩ := h.head
  rw [hj, List.cons_append, skipSpaces, List.dropWhile_cons_of_neg (by simp [hspace])]

theorem follows_cons {c : Char} (h : c = ',' ∨ c = ']' ∨ c = '\x7d') : Follows (c :: us) := by
  intro d hd
  obtain rfl := Option.some.inj hd
  exact h

/-- The value is read from its text up to its fractions, whatever follows. -/
def ReadBack (f : Double → Double) (j : Json) : Prop :=
  ∀ ⦃rest⦄, Follows rest → Reads (readValue (j.compactChars ++ rest)) (j.mapReals f).toDocument rest

theorem ReadBack.skipping {j : Json} (hread : ReadBack f j) (hlegible : Legible f j)
    (h : Follows rest) :
    Reads (readValue (skipSpaces (j.compactChars ++ rest))) (j.mapReals f).toDocument rest := by
  rw [hlegible.skipSpaces_append]
  exact hread h

theorem readItems_itemChars {items : List Json} (hne : items ≠ [])
    (hlegible : ∀ j ∈ items, Legible f j) (hread : ∀ j ∈ items, ReadBack f j) :
    Reads (readItems (itemChars items ++ ']' :: rest)) (toDocuments (mapRealsItems f items))
      rest := by
  induction items with
  | nil => exact absurd rfl hne
  | cons j items ih =>
    have hj {us : List Char} (hus : Follows us) :=
      (hread j List.mem_cons_self).skipping (hlegible j List.mem_cons_self) hus
    cases items with
    | nil =>
      rw [itemChars, mapRealsItems, mapRealsItems, toDocuments, toDocuments]
      exact readItems_cons (hj (follows_cons (.inr (.inl rfl)))) (.inl ⟨rfl, rfl⟩)
    | cons k items =>
      rw [itemChars, mapRealsItems, toDocuments, List.append_assoc]
      · refine readItems_cons (hj (follows_cons (.inl rfl))) (.inr ⟨_, rfl, ?_⟩)
        exact ih (List.cons_ne_nil k items) (fun l hl => hlegible l (List.mem_cons_of_mem j hl))
          (fun l hl => hread l (List.mem_cons_of_mem j hl))
      · exact List.cons_ne_nil k items

theorem readMembers_memberChars {members : List (String × Json)} (hne : members ≠ [])
    (hlegible : ∀ m ∈ members, Legible f m.2) (hread : ∀ m ∈ members, ReadBack f m.2) :
    Reads (readMembers (memberChars members ++ '\x7d' :: rest))
      (toEntries (mapRealsMembers f members)) rest := by
  induction members with
  | nil => exact absurd rfl hne
  | cons m members ih =>
    have hm {us : List Char} (hus : Follows us) :=
      (hread m List.mem_cons_self).skipping (hlegible m List.mem_cons_self) hus
    cases members with
    | nil =>
      rw [memberChars, mapRealsMembers, mapRealsMembers, toEntries, toEntries, List.append_assoc]
      exact readMembers_cons (hm (follows_cons (.inr (.inr rfl)))) (.inl ⟨rfl, rfl⟩)
    | cons k members =>
      rw [memberChars, mapRealsMembers, toEntries]
      · rw [List.append_assoc, List.cons_append, List.append_assoc, List.cons_append]
        refine readMembers_cons (hm (follows_cons (.inl rfl))) (.inr ⟨_, rfl, ?_⟩)
        exact ih (List.cons_ne_nil k members) (fun l hl => hlegible l (List.mem_cons_of_mem m hl))
          (fun l hl => hread l (List.mem_cons_of_mem m hl))
      · exact List.cons_ne_nil k members

theorem readBack_array {items : List Json} (hlegible : ∀ j ∈ items, Legible f j)
    (hread : ∀ j ∈ items, ReadBack f j) : ReadBack f (.array items) := by
  intro rest _
  rw [compactChars, mapReals, toDocument, List.cons_append, List.append_assoc]
  cases items with
  | nil =>
    rw [itemChars, List.nil_append, readValue]
    exact ⟨_, rfl⟩
  | cons j items =>
    have hitems : Reads (readItems (itemChars (j :: items) ++ ']' :: rest)) _ rest :=
      readItems_itemChars (List.cons_ne_nil j items) hlegible hread
    obtain ⟨c, cs, hj, hspace, hclose⟩ := (hlegible j List.mem_cons_self).head
    have hhead : ∃ us, itemChars (j :: items) ++ ']' :: rest = c :: us := by
      cases items <;> simp [itemChars, hj]
    obtain ⟨us, hus⟩ := hhead
    rw [hus] at hitems
    rw [List.singleton_append, hus]
    refine readValue_array ?_ ?_ hitems
    · rw [skipSpaces, List.dropWhile_cons_of_neg (by simp [hspace])]
    · intro d hd
      obtain rfl := Option.some.inj hd
      exact hclose

theorem readBack_object {members : List (String × Json)} (hlegible : ∀ m ∈ members, Legible f m.2)
    (hread : ∀ m ∈ members, ReadBack f m.2) : ReadBack f (.object members) := by
  intro rest _
  rw [compactChars, mapReals, toDocument, List.cons_append, List.append_assoc]
  cases members with
  | nil =>
    rw [memberChars, List.nil_append, readValue]
    exact ⟨_, rfl⟩
  | cons m members =>
    have hmembers : Reads (readMembers (memberChars (m :: members) ++ '\x7d' :: rest)) _ rest :=
      readMembers_memberChars (List.cons_ne_nil m members) hlegible hread
    have hhead : ∃ us, memberChars (m :: members) ++ '\x7d' :: rest = '"' :: us := by
      cases members <;> simp [memberChars, quoted]
    obtain ⟨us, hus⟩ := hhead
    rw [hus] at hmembers
    rw [List.singleton_append, hus]
    refine readValue_object rfl ?_ hmembers
    intro d hd
    obtain rfl := Option.some.inj hd
    decide

theorem readBack_of_legible {j : Json} (h : Legible f j) : ReadBack f j := by
  induction h with
  | null =>
    intro rest _
    show Reads (readValue ('n' :: 'u' :: 'l' :: 'l' :: rest)) .null rest
    rw [readValue]
    exact ⟨_, rfl⟩
  | bool b =>
    intro rest _
    cases b with
    | false =>
      show Reads (readValue ('f' :: 'a' :: 'l' :: 's' :: 'e' :: rest)) (.bool false) rest
      rw [readValue]
      exact ⟨_, rfl⟩
    | true =>
      show Reads (readValue ('t' :: 'r' :: 'u' :: 'e' :: rest)) (.bool true) rest
      rw [readValue]
      exact ⟨_, rfl⟩
  | int hlow hhigh =>
    intro rest hrest
    exact readValue_int hlow hhigh hrest
  | real h =>
    intro rest hrest
    exact h.read hrest
  | text s =>
    intro rest _
    exact readValue_quoted s
  | array h ih => exact readBack_array h ih
  | object h ih => exact readBack_object h ih

/-- A value is read from its compact text up to its fractions. -/
theorem document?_of_legible {j : Json} (h : Legible f j) :
    document? j.compact = some (j.mapReals f).toDocument := by
  have hnothing : Follows [] := by
    intro c hc
    cases hc
  have hread := readBack_of_legible h hnothing
  rw [← h.skipSpaces_append [], List.append_nil] at hread
  obtain ⟨_, hread⟩ := hread
  rw [document?, compact, String.toList_ofList, hread]
  rfl

/-! ### Values without fractions -/

/-- Without fractions, and with whole numbers that fit into 64 bits. -/
inductive Exact : Json → Prop
  | null : Exact .null
  | bool (b : Bool) : Exact (.bool b)
  | int {i : Int} (hlow : -(twoTo 63 : Int) ≤ i) (hhigh : i < twoTo 64) : Exact (.int i)
  | text (s : String) : Exact (.text s)
  | array {items : List Json} (h : ∀ j ∈ items, Exact j) : Exact (.array items)
  | object {members : List (String × Json)} (h : ∀ m ∈ members, Exact m.2) :
      Exact (.object members)

/-- A text that may be missing. -/
theorem exact_optional (o : Option String) : (o.elim .null .text : Json).Exact := by
  cases o with
  | none => exact .null
  | some s => exact .text s

theorem Exact.legible {j : Json} (h : Exact j) : Legible f j := by
  induction h with
  | null => exact .null
  | bool b => exact .bool b
  | int hlow hhigh => exact .int hlow hhigh
  | text s => exact .text s
  | array _ ih => exact .array ih
  | object _ ih => exact .object ih

theorem Exact.mapReals_eq {j : Json} (h : Exact j) : j.mapReals f = j := by
  induction h with
  | null => rfl
  | bool b => rfl
  | int hlow hhigh => rfl
  | text s => rfl
  | array _ ih =>
    rw [mapReals, mapRealsItems_eq, List.map_congr_left ih, List.map_id']
  | object _ ih =>
    rw [mapReals, mapRealsMembers_eq, List.map_congr_left fun m hm => by rw [ih m hm], List.map_id']

/-- A value without fractions is read back from its compact text. -/
theorem document?_compact {j : Json} (h : Exact j) : document? j.compact = some j.toDocument := by
  rw [document?_of_legible (h.legible (f := id)), h.mapReals_eq]

end Casework.Json
