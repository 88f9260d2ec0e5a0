import Mathlib.Data.List.Forall2
import Casework.Proofs.Dictionary
import Casework.Proofs.Json.Reordered

/-!
# Records are read back

A value is read back when every reordering of its encoding is decoded to it. A record is read back
when all of its fields are: however its members are ordered, each of them is found under its name.
Lists are read back item by item, and a dictionary is made again of its entries in any order.
-/

namespace Casework

/-- All items have a value, these ones in turn. -/
theorem mapM_eq_some_iff {α β : Type} {f : α → Option β} {as : List α} {bs : List β} :
    as.mapM f = some bs ↔ List.Forall₂ (fun a b => f a = some b) as bs := by
  induction as generalizing bs with
  | nil => simp [eq_comm]
  | cons a as ih =>
    simp only [List.mapM_cons, Option.bind_eq_bind, Option.bind_eq_some_iff,
      List.forall₂_cons_left_iff, ih, Option.pure_def, Option.some.injEq]
    constructor
    · rintro ⟨b, hb, bs, hbs, rfl⟩
      exact ⟨b, bs, hb, hbs, rfl⟩
    · rintro ⟨b, bs, hb, hbs, rfl⟩
      exact ⟨b, hb, bs, hbs, rfl⟩

/-- The whole numbers of 32 bits with a sign. -/
def IsInt32 (i : Int) : Prop := -(twoTo 31 : Int) ≤ i ∧ i < twoTo 31

namespace Document

variable {α : Type} {decode : Document → Option α} {encode : α → Json} {j : Json} {a : α}
  {fields : List (String × Document)} {name : String} {names : List String}

/-- In whatever order the members of the value stand, its document is read as `a`. -/
def Decodes (decode : Document → Option α) (j : Json) (a : α) : Prop :=
  ∀ ⦃i⦄, Json.Reordered i j → decode i.toDocument = some a

/-! ### Single values -/

theorem decodes_text (s : String) : Decodes text? (.text s) s := by
  intro i hi
  cases hi
  rfl

theorem decodes_bool (b : Bool) : Decodes bool? (.bool b) b := by
  intro i hi
  cases hi
  rfl

theorem decodes_int32 {i : Int} (h : IsInt32 i) : Decodes int32? (.int i) i := by
  intro k hk
  cases hk
  obtain ⟨hlow, hhigh⟩ := h
  rw [Json.toDocument]
  split
  · show (if i.natAbs ≤ twoTo 31 then some (-(i.natAbs : Int)) else none) = some i
    rw [if_pos (by omega)]
    congr 1
    omega
  · show (if i.natAbs < twoTo 31 then some (i.natAbs : Int) else none) = some i
    rw [if_pos (by omega)]
    congr 1
    omega

theorem decodes_nat32 {n : Nat} (h : n < twoTo 32) : Decodes nat32? (.int n) n := by
  intro k hk
  cases hk
  rw [Json.toDocument, if_neg (by omega), Int.natAbs_natCast]
  show (if n ≤ twoTo 32 - 1 then some n else none) = some n
  exact if_pos (Nat.le_sub_one_of_lt h)

/-- The name of an alternative, and the alternative of this name. -/
theorem decodes_alternative {ofName? : String → Option α} {s : String} (h : ofName? s = some a) :
    Decodes (fun d => (d.alternative? names).bind ofName?) (.text s) a := by
  intro i hi
  cases hi
  exact h

theorem decodes_none : Decodes (optional? decode) .null none := by
  intro i hi
  cases hi
  rfl

/-- A text, or null if there is none. -/
theorem decodes_optional {decode : Document → Option String}
    (h : ∀ s, Decodes decode (.text s) s) (o : Option String) :
    Decodes (optional? decode) (o.elim .null .text) o := by
  cases o with
  | none => exact decodes_none
  | some s =>
    intro i hi
    cases hi
    show (decode (Json.text s).toDocument).map some = some (some s)
    rw [h s (.text s)]
    rfl

/-! ### Lists and dictionaries -/

theorem decodes_list {as : List α} (h : ∀ a ∈ as, Decodes decode (encode a) a) :
    Decodes (list? decode) (.array (as.map encode)) as := by
  intro k hk
  obtain ⟨items, rfl, hitems⟩ := Json.Reordered.of_array hk
  rw [List.forall₂_map_right_iff] at hitems
  show (Json.toDocuments items).mapM decode = some as
  rw [Json.toDocuments_eq, mapM_eq_some_iff, List.forall₂_map_left_iff]
  clear hk
  induction hitems with
  | nil => exact .nil
  | cons hitem _ ih =>
    obtain ⟨ha, has⟩ := List.forall_mem_cons.1 h
    exact .cons (ha hitem) (ih has)

/-- The texts of a dictionary come back from its members, in whatever order they stand. -/
theorem decodes_dictionary {decode : Document → Option String}
    (h : ∀ s, Decodes decode (.text s) s) (d : Dictionary String) :
    Decodes (dictionary? decode) (.object (d.map Json.text).entries) d := by
  intro k hk
  cases hk with
  | @object pairs _ hpairs hothers =>
    have htexts : List.Forall₂ (fun (m : String × Json) e => m = (e.1, .text e.2))
        (d.map Json.text).entries d.entries :=
      List.forall₂_map_left_iff.2 (List.forall₂_same.2 fun _ _ => rfl)
    -- The members are the entries in some order, and all of their values are texts.
    obtain ⟨known, hknown, hperm⟩ := List.perm_comp_forall₂ hothers htexts
    have hentries : (Json.toEntries (pairs.map fun p => (p.1, p.2.1))).mapM
        (fun e => do return (← text? e.1, ← decode e.2)) = some known := by
      rw [Json.toEntries_eq, mapM_eq_some_iff, List.forall₂_map_left_iff,
        List.forall₂_map_left_iff]
      rw [List.forall₂_map_left_iff] at hknown
      refine ((List.forall₂_and_left pairs known).2 ⟨hpairs, hknown⟩).imp ?_
      intro p e ⟨hvalue, heq⟩
      have hname : p.1 = e.1 := congrArg Prod.fst heq
      have htext : p.2.2 = .text e.2 := congrArg Prod.snd heq
      rw [htext] at hvalue
      show (some p.1 >>= fun name => decode p.2.1.toDocument >>= fun s => pure (name, s)) = _
      rw [h e.2 hvalue, hname]
      rfl
    show ((Json.toEntries (pairs.map fun p => (p.1, p.2.1))).mapM
      (fun e => do return (← text? e.1, ← decode e.2)) >>= fun known => _) = some d
    rw [hentries]
    exact congrArg some (Dictionary.ofList_of_perm hperm)

/-! ### Records -/

/-- The field of this name says what the value says. -/
def Holds (fields : List (String × Document)) (name : String) (j : Json) : Prop :=
  ∃ i, fields.lookup name = some i.toDocument ∧ Json.Reordered i j

/-- An object of known names is a record. -/
theorem fields?_object {members : List (String × Json)} (hknown : ∀ m ∈ members, m.1 ∈ names)
    (hnames : (members.map Prod.fst).Nodup) :
    fields? names (Json.object members).toDocument =
      some (members.map fun m => (m.1, m.2.toDocument)) := by
  have hnamed : (Json.toEntries members).mapM
      (fun e => do return (← fieldName? names e.1, e.2)) =
        some (members.map fun m => (some m.1, m.2.toDocument)) := by
    rw [Json.toEntries_eq, mapM_eq_some_iff, List.forall₂_map_left_iff, List.forall₂_map_right_iff,
      List.forall₂_same]
    intro m hm
    show (some (if m.1 ∈ names then some m.1 else none) >>= fun key => pure (key, _)) = _
    rw [if_pos (hknown m hm)]
    rfl
  have hfields : ((members.map fun m => (some m.1, m.2.toDocument)).filterMap
      fun e => e.1.map (·, e.2)) = members.map fun m => (m.1, m.2.toDocument) := by
    rw [List.filterMap_map, ← List.filterMap_eq_map]
    rfl
  show ((Json.toEntries members).mapM (fun e => do return (← fieldName? names e.1, e.2)) >>=
    fun named => _) = _
  rw [hnamed]
  simp only [Option.bind_eq_bind, Option.bind_some, hfields, List.map_map]
  exact if_pos hnames

/-- A record has all the fields that its members name. -/
theorem fields?_ofTable {members : List (String × Json)} {k : Json}
    (hdistinct : names.Nodup) (hnames : members.map Prod.fst = names)
    (h : k.Reordered (.ofTable members)) :
    ∃ fields, fields? names k.toDocument = some fields ∧
      ∀ m ∈ members, Holds fields m.1 m.2 := by
  subst hnames
  obtain ⟨others, rfl, hothers, hvalues⟩ := Json.Reordered.of_object h
  have hkeys : (others.map Prod.fst).Nodup := hothers.nodup_iff.2 (Dictionary.nodup_keys _)
  have hknown : ∀ o ∈ others, o.1 ∈ members.map Prod.fst := by
    intro o ho
    obtain ⟨m, hm, heq⟩ := List.mem_map.1 (hothers.mem_iff.1 (List.mem_map_of_mem ho))
    rw [← heq]
    exact List.mem_map_of_mem (Dictionary.mem_of_mem_ofList hm)
  refine ⟨_, fields?_object hknown hkeys, ?_⟩
  intro m hm
  obtain ⟨i, hmem, hi⟩ := hvalues m ((Dictionary.mem_entries_ofList_iff hdistinct).2 hm)
  refine ⟨i, Dictionary.lookup_of_mem ?_ (List.mem_map_of_mem hmem), hi⟩
  simpa [Function.comp_def] using hkeys

theorem required?_eq (hfield : Holds fields name j) (h : Decodes decode j a) :
    required? decode name fields = some a := by
  obtain ⟨i, hlookup, hi⟩ := hfield
  rw [required?, hlookup]
  exact h hi

theorem defaulted?_eq {otherwise : α} (hfield : Holds fields name j) (h : Decodes decode j a) :
    defaulted? otherwise decode name fields = some a := by
  obtain ⟨i, hlookup, hi⟩ := hfield
  rw [defaulted?, hlookup]
  exact h hi

theorem optionalField?_eq {decode : Document → Option String} {o : Option String}
    (hfield : Holds fields name (o.elim .null .text)) (h : ∀ s, Decodes decode (.text s) s) :
    optionalField? decode name fields = some o :=
  defaulted?_eq hfield (decodes_optional h o)

/-! ### What can be read at all -/

/-- Whatever the document, what is decoded has the property. -/
def Yields (decode : Document → Option α) (p : α → Prop) : Prop :=
  ∀ ⦃d a⦄, decode d = some a → p a

section

variable {p : α → Prop}

theorem yields_int32 : Yields int32? IsInt32 := by
  intro d i h
  have hpos : 0 < twoTo 31 := by decide
  rw [int32?] at h
  split at h
  · rename_i n _
    obtain ⟨hn, hi⟩ := Option.ite_none_right_eq_some.1 h
    obtain rfl := Option.some.inj hi
    constructor <;> omega
  · rename_i n _
    obtain ⟨hn, hi⟩ := Option.ite_none_right_eq_some.1 h
    obtain rfl := Option.some.inj hi
    constructor <;> omega
  · cases h

theorem yields_nat32 : Yields nat32? (· < twoTo 32) := by
  intro d n h
  rw [nat32?, nat?] at h
  split at h
  · obtain ⟨hn, heq⟩ := Option.ite_none_right_eq_some.1 h
    obtain rfl := Option.some.inj heq
    exact Nat.lt_of_le_pred (by decide) hn
  · cases h

theorem Yields.list (h : Yields decode p) : Yields (list? decode) fun as => ∀ a ∈ as, p a := by
  intro d as has
  rw [list?] at has
  split at has
  · rename_i items hlist
    have hitems := mapM_eq_some_iff.1 has
    clear hlist has
    induction hitems with
    | nil => simp
    | cons hitem _ ih => exact List.forall_mem_cons.2 ⟨h hitem, ih⟩
  · obtain ⟨-, heq⟩ := Option.ite_none_right_eq_some.1 has
    obtain rfl := Option.some.inj heq
    simp

theorem Yields.required (h : Yields decode p) (ha : required? decode name fields = some a) :
    p a := by
  obtain ⟨d, -, hd⟩ := Option.bind_eq_some_iff.1 ha
  exact h hd

theorem Yields.defaulted {otherwise : α} (h : Yields decode p) (hotherwise : p otherwise)
    (ha : defaulted? otherwise decode name fields = some a) : p a := by
  rw [defaulted?] at ha
  split at ha
  · exact h ha
  · obtain rfl := Option.some.inj ha
    exact hotherwise

end

end Document

end Casework
