import Mathlib.Data.List.Find
import Casework.Proofs.Formula.Substitution

/-!
# What reading a formula tells of working it out

A formula is read with zero for every variable. If that succeeds, then it comes to a value, or to an
error of its numbers, wherever the variables that are listed have values; and if it fails, then with
any values for the variables it fails for the same reason at the same place.
-/

namespace Casework.Formula

variable {value value' : String → Option Decimal} {ts us : List Located} {formula : String}

/-! ### First uses -/

/-- The names are those that are used, each of them once, in the order in which they are used
first. -/
structure FirstUses (names uses : List String) : Prop where
  mem : ∀ name, name ∈ names ↔ name ∈ uses
  nodup : names.Nodup
  ordered : names.Pairwise fun a b => uses.idxOf a < uses.idxOf b

theorem idxOf_lt_of_filter {p : String → Bool} {uses : List String} {a b : String} (ha : p a)
    (hb : p b) (h : (uses.filter p).idxOf a < (uses.filter p).idxOf b) :
    uses.idxOf a < uses.idxOf b := by
  induction uses with
  | nil => exact absurd h (Nat.lt_irrefl _)
  | cons c uses ih =>
    by_cases hc : p c
    · rw [List.filter_cons_of_pos hc] at h
      by_cases hca : c = a
      · subst hca
        by_cases hcb : c = b
        · subst hcb
          exact absurd h (Nat.lt_irrefl _)
        · rw [List.idxOf_cons_self, List.idxOf_cons_ne _ hcb]
          exact Nat.succ_pos _
      · by_cases hcb : c = b
        · subst hcb
          rw [List.idxOf_cons_self] at h
          exact absurd h (Nat.not_lt_zero _)
        · rw [List.idxOf_cons_ne _ hca, List.idxOf_cons_ne _ hcb] at h ⊢
          exact Nat.succ_lt_succ (ih (Nat.lt_of_succ_lt_succ h))
    · rw [List.filter_cons_of_neg hc] at h
      have hne : ∀ {d}, p d → c ≠ d := by
        rintro d hd rfl
        exact hc hd
      rw [List.idxOf_cons_ne _ (hne ha), List.idxOf_cons_ne _ (hne hb)]
      exact Nat.succ_lt_succ (ih h)

/-- Induction on how many names there are: one name, and then whichever is another. -/
theorem names_induction {motive : List String → Prop} (nil : motive [])
    (cons : ∀ a uses, motive (uses.filter fun b => !b == a) → motive (a :: uses))
    (uses : List String) : motive uses := by
  induction hn : uses.length using Nat.strong_induction_on generalizing uses with
  | _ n ih =>
    cases uses with
    | nil => exact nil
    | cons a uses =>
      refine cons a uses (ih _ ?_ _ rfl)
      have := List.length_filter_le (fun b => !b == a) uses
      simp only [List.length_cons] at hn
      omega

theorem firstUses_eraseDups (uses : List String) : FirstUses uses.eraseDups uses := by
  induction uses using names_induction with
  | nil => exact ⟨fun _ => List.mem_eraseDups, List.nodup_nil, .nil⟩
  | cons a uses ih =>
    obtain ⟨hmem, hnodup, hordered⟩ := ih
    have hne : ∀ {b}, b ∈ (uses.filter fun b => !b == a).eraseDups → a ≠ b := by
      rintro b hb rfl
      simpa using (hmem a).1 hb
    refine ⟨fun _ => List.mem_eraseDups, ?_, ?_⟩
    · rw [List.eraseDups_cons]
      exact List.nodup_cons.2 ⟨fun ha => hne ha rfl, hnodup⟩
    · rw [List.eraseDups_cons]
      refine List.pairwise_cons.2 ⟨?_, ?_⟩
      · intro b hb
        rw [List.idxOf_cons_self, List.idxOf_cons_ne _ (hne hb)]
        exact Nat.succ_pos _
      · refine hordered.imp_of_mem ?_
        intro b c hb hc hbc
        rw [List.idxOf_cons_ne _ (hne hb), List.idxOf_cons_ne _ (hne hc)]
        refine Nat.succ_lt_succ (idxOf_lt_of_filter ?_ ?_ hbc)
        · simpa using (hne hb).symm
        · simpa using (hne hc).symm

/-- What is found first among the names is what is found first among their uses. -/
theorem find?_eraseDups (p : String → Bool) (uses : List String) :
    uses.eraseDups.find? p = uses.find? p := by
  induction uses using names_induction with
  | nil => rfl
  | cons a uses ih =>
    rw [List.eraseDups_cons]
    by_cases ha : p a
    · rw [List.find?_cons_of_pos ha, List.find?_cons_of_pos ha]
    · rw [List.find?_cons_of_neg ha, List.find?_cons_of_neg ha, ih, List.find?_filter]
      refine List.find?_congr ?_
      intro b _
      by_cases hb : b = a
      · simpa [hb] using ha
      · simp [hb]

/-! ### Variables -/

/-- The variable that the token names. -/
def Located.use? (t : Located) : Option String :=
  match t.token with
  | .name text => if (Keyword.ofName? text).isSome then none else some text
  | _ => none

/-- The names that are not reserved, as often as they are used, in the order of the text. -/
def variableUses (ts : List Located) : List String := ts.filterMap Located.use?

theorem variableNames_eq (ts : List Located) :
    variableNames ts = (variableUses ts).eraseDups := rfl

theorem mem_variableUses_head {t : Located} {name : String} (h : t.use? = some name) :
    name ∈ variableUses (t :: ts) :=
  List.mem_filterMap.2 ⟨t, List.mem_cons_self, h⟩

theorem mem_variableUses_tail {t : Located} {name : String} (h : name ∈ variableUses ts) :
    name ∈ variableUses (t :: ts) := by
  obtain ⟨u, hu, hname⟩ := List.mem_filterMap.1 h
  exact List.mem_filterMap.2 ⟨u, List.mem_cons_of_mem t hu, hname⟩

/-- The tokens of a formula. A text that the lexer does not take has none. -/
def tokensOf (formula : String) : List Located :=
  match tokenize formula with
  | .ok ts => ts
  | .error _ => []

theorem Located.bind_of_none {t : Located} (h : t.use? = none) : t.bind value = .ok t := by
  rw [use?] at h
  rw [bind]
  cases ht : t.token with
  | number d => rfl
  | symbol s => rfl
  | name text =>
    simp only [ht] at h ⊢
    by_cases hreserved : (Keyword.ofName? text).isSome
    · rw [if_pos hreserved]
    · rw [if_neg hreserved] at h
      cases h

theorem Located.bind_of_some {t : Located} {name : String} (h : t.use? = some name) :
    t.bind value = match value name with
      | some d => .ok ⟨.number d, t.offset⟩
      | none => .error (.unknownVariable name) := by
  rw [use?] at h
  rw [bind]
  cases ht : t.token with
  | number d | symbol s =>
    simp only [ht] at h
    cases h
  | name text =>
    simp only [ht] at h ⊢
    by_cases hreserved : (Keyword.ofName? text).isSome
    · rw [if_pos hreserved] at h
      cases h
    · rw [if_neg hreserved] at h
      cases h
      exact (if_neg hreserved).trans rfl

/-- The token that the formula has somewhere, as it is read with the values and as it is read with
zero for each variable. -/
inductive StandsIn (value : String → Option Decimal) (ts : List Located) :
    Located → Located → Prop
  | itself {t : Located} (h : t ∈ ts) : StandsIn value ts t t
  | bound {t : Located} {name : String} {d : Decimal} (h : t ∈ ts)
      (hname : t.use? = some name) (hvalue : value name = some d) :
      StandsIn value ts ⟨.number d, t.offset⟩ ⟨.number .zero, t.offset⟩

theorem StandsIn.outline {t u : Located} (h : StandsIn value ts t u) :
    t.token.outline = u.token.outline := by
  cases h <;> rfl

theorem StandsIn.mono {t u : Located} (h : StandsIn value ts t u) (hts : ∀ v ∈ ts, v ∈ us) :
    StandsIn value us t u := by
  cases h with
  | itself h => exact .itself (hts _ h)
  | bound h hname hvalue => exact .bound (hts _ h) hname hvalue

/-- With a value for each of the variables all tokens can be bound, and they are like the ones with
zeros. -/
theorem bindVariables_likened (h : ∀ name ∈ variableUses ts, (value name).isSome) :
    ∃ us vs, bindVariables value ts = .ok us ∧
      bindVariables (fun _ => some .zero) ts = .ok vs ∧ Likened (StandsIn value ts) us vs := by
  induction ts with
  | nil => exact ⟨[], [], rfl, rfl, StandsIn.outline, .nil⟩
  | cons t ts ih =>
    obtain ⟨us, vs, hus, hvs, -, hlike⟩ := ih fun name hname => h name (mem_variableUses_tail hname)
    have hlike' : List.Forall₂ (StandsIn value (t :: ts)) us vs :=
      hlike.imp fun _ _ h => h.mono fun _ => List.mem_cons_of_mem t
    rw [bindVariables] at hus hvs ⊢
    rw [bindVariables, List.mapM_cons, List.mapM_cons, hus, hvs]
    cases hname : t.use? with
    | none =>
      rw [Located.bind_of_none hname, Located.bind_of_none hname]
      exact ⟨t :: us, t :: vs, rfl, rfl, StandsIn.outline,
        .cons (.itself List.mem_cons_self) hlike'⟩
    | some name =>
      obtain ⟨d, hvalue⟩ := Option.isSome_iff_exists.1 (h name (mem_variableUses_head hname))
      rw [Located.bind_of_some hname, Located.bind_of_some hname, hvalue]
      exact ⟨_ :: us, _ :: vs, rfl, rfl, StandsIn.outline,
        .cons (.bound List.mem_cons_self hname hvalue) hlike'⟩

/-- The first variable that has no value is the error. -/
theorem bindVariables_missing {name : String}
    (h : (variableUses ts).find? (fun name => (value name).isNone) = some name) :
    bindVariables value ts = .error (.unknownVariable name) := by
  induction ts with
  | nil => cases h
  | cons t ts ih =>
    rw [bindVariables] at ih ⊢
    rw [List.mapM_cons]
    rw [variableUses] at h
    cases hname : t.use? with
    | none =>
      rw [List.filterMap_cons_none hname] at h
      rw [Located.bind_of_none hname, ih h]
      rfl
    | some first =>
      rw [List.filterMap_cons_some hname, List.find?_cons] at h
      rw [Located.bind_of_some hname]
      cases hvalue : value first with
      | none =>
        rw [hvalue] at h
        cases h
        rfl
      | some d =>
        rw [hvalue] at h
        rw [ih h]
        rfl

theorem bindVariables_congr (h : ∀ name ∈ variableUses ts, value' name = value name) :
    bindVariables value' ts = bindVariables value ts := by
  induction ts with
  | nil => rfl
  | cons t ts ih =>
    have hhead : t.bind value' = t.bind value := by
      cases hname : t.use? with
      | none => rw [Located.bind_of_none hname, Located.bind_of_none hname]
      | some name =>
        rw [Located.bind_of_some hname, Located.bind_of_some hname,
          h name (mem_variableUses_head hname)]
    have htail := ih fun name hname => h name (mem_variableUses_tail hname)
    rw [bindVariables, bindVariables] at htail ⊢
    rw [List.mapM_cons, List.mapM_cons, hhead, htail]

/-! ### Formulas -/

/-- What a formula that the lexer takes comes to. -/
theorem evaluate_eq (hts : tokenize formula = .ok ts) :
    evaluate formula value =
      bindVariables value ts >>= fun us => parse us >>= fun e => e.eval := by
  rw [evaluate, hts]
  rfl

theorem evaluate_of_bound (hts : tokenize formula = .ok ts) (hus : bindVariables value ts = .ok us) :
    evaluate formula value = parse us >>= fun e => e.eval := by
  rw [evaluate_eq hts, hus]
  rfl

/-- Bound variables leave no error but one of the numbers. -/
theorem evaluate_ofNumbers (hts : tokenize formula = .ok ts) {vs : List Located} {e : Expr}
    (hvs : bindVariables (fun _ => some .zero) ts = .ok vs) (hread : parse vs = .ok e)
    (hbound : ∀ name ∈ variableUses ts, (value name).isSome) {err : FormulaError}
    (herr : evaluate formula value = .error err) : err.OfNumbers := by
  obtain ⟨us, vs', hus, hvs', -⟩ := bindVariables_likened hbound
  obtain ⟨e', he'⟩ := (parse_eq_ok_iff_derives.1 hread).of_outline (bindVariables_outline hus hvs)
  have hparsed := parse_eq_ok_iff_derives.2 he'
  rw [evaluate_of_bound hts hus] at herr
  obtain hunread | ⟨_, hparsed', heval⟩ := bind_eq_error.1 herr
  · cases hparsed.symm.trans hunread
  · cases hparsed.symm.trans hparsed'
    exact he'.eval_error heval

/-- What cannot be read with zeros cannot be read with other values, for the same reason. -/
theorem evaluate_mates (hts : tokenize formula = .ok ts) {vs : List Located} {err : FormulaError}
    (hvs : bindVariables (fun _ => some .zero) ts = .ok vs) (hread : parse vs = .error err)
    (hbound : ∀ name ∈ variableUses ts, (value name).isSome) :
    ∃ err', evaluate formula value = .error err' ∧ err'.Mates (StandsIn value ts) err := by
  obtain ⟨us, vs', hus, hvs', hlike⟩ := bindVariables_likened hbound
  obtain rfl : vs' = vs := Except.ok.inj (hvs'.symm.trans hvs)
  have hmated := parse_mated hlike
  rw [hread] at hmated
  generalize hparsed : parse us = parsed at hmated
  cases hmated with
  | error hmates =>
    refine ⟨_, ?_, hmates⟩
    rw [evaluate_of_bound hts hus]
    exact bind_eq_error.2 (.inl hparsed)

/-- Reading a formula tells what working it out comes to, with whatever values. When it can be read,
the first variable that has no value is the error, and where all have one, the formula comes to a
value or fails with a division by zero, an overflow or a number of digits that is none; and nothing
but the values of the variables that are listed counts. When it cannot be read, it fails with any
values for its variables, and the error is the same but for a token that stands for a variable. -/
theorem variablesOf_foretells (formula : String) :
    match variablesOf formula with
    | .ok names =>
      FirstUses names (variableUses (tokensOf formula)) ∧ ∀ value : String → Option Decimal,
        (∀ name, names.find? (fun name => (value name).isNone) = some name →
          evaluate formula value = .error (.unknownVariable name)) ∧
        ((∀ name ∈ names, (value name).isSome) → ∀ err, evaluate formula value = .error err →
          err = .divisionByZero ∨ err = .overflow ∨ ∃ digits, err = .invalidDigits digits) ∧
        ∀ value' : String → Option Decimal, (∀ name ∈ names, value' name = value name) →
          evaluate formula value' = evaluate formula value
    | .error err =>
      ∀ value : String → Option Decimal,
        (∀ name ∈ variableUses (tokensOf formula), (value name).isSome) →
        ∃ err', evaluate formula value = .error err' ∧
          err'.Mates (StandsIn value (tokensOf formula)) err := by
  rw [variablesOf, tokensOf]
  cases hts : tokenize formula with
  | error err =>
    intro value _
    refine ⟨err, ?_, .same err⟩
    rw [evaluate, hts]
    rfl
  | ok ts =>
    have hzeros : ∀ name ∈ variableUses ts,
        ((fun _ => some .zero : String → Option Decimal) name).isSome := fun _ _ => rfl
    obtain ⟨-, vs, -, hvs, -⟩ := bindVariables_likened hzeros
    cases hread : parse vs with
    | error err =>
      simp only [hvs, hread, bind, Except.bind]
      intro value hbound
      exact evaluate_mates hts hvs hread hbound
    | ok e =>
      simp only [hvs, hread, bind, Except.bind, pure, Except.pure, variableNames_eq]
      refine ⟨firstUses_eraseDups _, fun value => ⟨?_, ?_, ?_⟩⟩
      · intro name hname
        rw [find?_eraseDups] at hname
        rw [evaluate_eq hts, bindVariables_missing hname]
        rfl
      · intro hbound err herr
        have hnumbers := evaluate_ofNumbers hts hvs hread
          (fun name hname => hbound name (List.mem_eraseDups.2 hname)) herr
        cases err with
        | divisionByZero => exact .inl rfl
        | overflow => exact .inr (.inl rfl)
        | invalidDigits digits => exact .inr (.inr ⟨digits, rfl⟩)
        | invalidCharacter _ _ | invalidNumber _ _ | unknownVariable _ | unexpectedToken _ _
          | unexpectedEnd _ | trailingTokens _ | argumentCount _ _ | empty =>
          exact hnumbers.elim
      · intro value' hagree
        rw [evaluate_eq hts, evaluate_eq hts,
          bindVariables_congr fun name hname => hagree name (List.mem_eraseDups.2 hname)]

end Casework.Formula
