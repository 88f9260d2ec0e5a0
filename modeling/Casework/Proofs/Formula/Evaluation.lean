import Casework.Formula.Evaluate
import Casework.Proofs.Formula.Parsing

/-!
# Formulas that can be read

Whether a formula can be read does not depend on the values of its variables: the tokens differ in
their numbers only, and those the grammar passes over. What a formula that can be read still comes to
is a value, or an error of the values that it is given.
-/

namespace Casework.Formula

variable {level : Level} {e : Expr} {err : FormulaError}

/-- The error comes of the values, not of how the formula is written. -/
def FormulaError.OfValues : FormulaError → Prop
  | .unknownVariable _ | .invalidDigits _ | .divisionByZero | .overflow => True
  | _ => False

/-- The error comes of the numbers that are reckoned with. -/
def FormulaError.OfNumbers : FormulaError → Prop
  | .invalidDigits _ | .divisionByZero | .overflow => True
  | _ => False

theorem FormulaError.OfNumbers.ofValues (h : err.OfNumbers) : err.OfValues := by
  cases err with
  | invalidDigits _ | divisionByZero | overflow => trivial
  | invalidCharacter _ _ | invalidNumber _ _ | unknownVariable _ | unexpectedToken _ _
    | unexpectedEnd _ | trailingTokens _ | argumentCount _ _ | empty => exact h.elim

/-! ### Outlines -/

/-- The token as the grammar sees it: all numbers are one. -/
def Token.outline : Token → Token
  | .number _ => .number .zero
  | t => t

theorem Token.eq_number_of_outline {t : Token} {value : Decimal}
    (h : t.outline = (Token.number value).outline) : ∃ value', t = .number value' := by
  cases t with
  | number value' => exact ⟨value', rfl⟩
  | name text => cases h
  | symbol s => cases h

theorem Token.eq_symbol_of_outline {t : Token} {s : Symbol}
    (h : t.outline = (Token.symbol s).outline) : t = .symbol s := by
  cases t with
  | number value => cases h
  | name text => cases h
  | symbol s' => exact h

theorem Keyword.Spells.of_outline {k : Keyword} {t u : Token} (hu : k.Spells u)
    (h : t.outline = u.outline) : k.Spells t := by
  obtain ⟨name, rfl, hname⟩ := hu
  cases t with
  | number value => cases h
  | name text =>
    cases h
    exact ⟨name, rfl, hname⟩
  | symbol s => cases h

/-- The tokens have one outline. -/
def SameOutline (ts us : List Token) : Prop := ts.map Token.outline = us.map Token.outline

theorem SameOutline.append_cons {ts us vs : List Token} {u : Token}
    (h : SameOutline ts (us ++ u :: vs)) : ∃ as t bs, ts = as ++ t :: bs ∧ SameOutline as us ∧
      t.outline = u.outline ∧ SameOutline bs vs := by
  rw [SameOutline, List.map_append, List.map_cons] at h
  obtain ⟨as, more, rfl, has, hmore⟩ := List.map_eq_append_iff.1 h
  obtain ⟨t, bs, rfl, ht, hbs⟩ := List.map_eq_cons_iff.1 hmore
  exact ⟨as, t, bs, rfl, has, ht, hbs⟩

theorem SameOutline.append_symbol {ts us vs : List Token} {s : Symbol}
    (h : SameOutline ts (us ++ .symbol s :: vs)) :
    ∃ as bs, ts = as ++ .symbol s :: bs ∧ SameOutline as us ∧ SameOutline bs vs := by
  obtain ⟨as, t, bs, rfl, has, ht, hbs⟩ := h.append_cons
  obtain rfl := Token.eq_symbol_of_outline ht
  exact ⟨as, bs, rfl, has, hbs⟩

theorem SameOutline.cons_symbol {ts us : List Token} {s : Symbol}
    (h : SameOutline ts (.symbol s :: us)) : ∃ as, ts = .symbol s :: as ∧ SameOutline as us := by
  obtain ⟨t, as, rfl, ht, has⟩ := List.map_eq_cons_iff.1 h
  obtain rfl := Token.eq_symbol_of_outline ht
  exact ⟨as, rfl, has⟩

theorem SameOutline.parenthesized {ts us : List Token} (h : SameOutline ts (parenthesized us)) :
    ∃ inner, ts = Formula.parenthesized inner ∧ SameOutline inner us := by
  obtain ⟨vs, rfl, hvs⟩ := h.cons_symbol
  obtain ⟨inner, last, rfl, hinner, hlast⟩ := hvs.append_symbol
  obtain rfl := List.map_eq_nil_iff.1 hlast
  exact ⟨inner, rfl, hinner⟩

/-- The arguments of a call, between commas. -/
theorem SameOutline.pieces {pieces : List (List Token × Expr)} (hne : pieces ≠ [])
    (hpieces : ∀ p ∈ pieces, ∀ ts, SameOutline ts p.1 → ∃ e, Derives .sum ts e) {ts : List Token}
    (h : SameOutline ts ([.symbol .comma].intercalate (pieces.map Prod.fst))) :
    ∃ pieces' : List (List Token × Expr),
      ts = [.symbol .comma].intercalate (pieces'.map Prod.fst) ∧
        pieces'.length = pieces.length ∧ ∀ p ∈ pieces', Derives .sum p.1 p.2 := by
  induction pieces generalizing ts with
  | nil => exact absurd rfl hne
  | cons p pieces ih =>
    have hp := hpieces p List.mem_cons_self
    cases pieces with
    | nil =>
      simp only [List.map_cons, List.map_nil, List.intercalate_singleton] at h
      obtain ⟨e, he⟩ := hp ts h
      exact ⟨[(ts, e)], by simp, rfl, by simpa using he⟩
    | cons q pieces =>
      rw [List.map_cons, List.intercalate_cons_of_ne_nil (by simp), List.append_assoc,
        List.singleton_append] at h
      obtain ⟨as, bs, rfl, has, hbs⟩ := h.append_symbol
      obtain ⟨e, he⟩ := hp as has
      obtain ⟨pieces', rfl, hlength, hderives⟩ := ih (List.cons_ne_nil q pieces)
        (fun r hr => hpieces r (List.mem_cons_of_mem p hr)) hbs
      refine ⟨(as, e) :: pieces', ?_, by simp [hlength], ?_⟩
      · rw [List.map_cons, List.intercalate_cons_of_ne_nil, List.append_assoc]
        · rfl
        · intro hnil
          rw [List.map_eq_nil_iff.1 hnil] at hlength
          cases hlength
      · intro r hr
        cases hr with
        | head => exact he
        | tail _ hr => exact hderives r hr

/-- What the tokens derive at the level, all with the same outline do, up to the numbers. -/
theorem Derives.of_outline {us : List Token} (h : Derives level us e) {ts : List Token}
    (hts : SameOutline ts us) : ∃ e', Derives level ts e' := by
  induction h generalizing ts with
  | sumOfProduct _ ih =>
    obtain ⟨e', he'⟩ := ih hts
    exact ⟨e', .sumOfProduct he'⟩
  | sum hop _ _ iha ihb =>
    obtain ⟨as, bs, rfl, has, hbs⟩ := hts.append_symbol
    obtain ⟨a, ha⟩ := iha has
    obtain ⟨b, hb⟩ := ihb hbs
    exact ⟨_, .sum hop ha hb⟩
  | productOfSigned _ ih =>
    obtain ⟨e', he'⟩ := ih hts
    exact ⟨e', .productOfSigned he'⟩
  | product hop _ _ iha ihb =>
    obtain ⟨as, bs, rfl, has, hbs⟩ := hts.append_symbol
    obtain ⟨a, ha⟩ := iha has
    obtain ⟨b, hb⟩ := ihb hbs
    exact ⟨_, .product hop ha hb⟩
  | signedOfOperand _ ih =>
    obtain ⟨e', he'⟩ := ih hts
    exact ⟨e', .signedOfOperand he'⟩
  | plus _ ih =>
    obtain ⟨us, rfl, hus⟩ := hts.cons_symbol
    obtain ⟨e', he'⟩ := ih hus
    exact ⟨e', .plus he'⟩
  | minus _ ih =>
    obtain ⟨us, rfl, hus⟩ := hts.cons_symbol
    obtain ⟨e', he'⟩ := ih hus
    exact ⟨_, .minus he'⟩
  | number value =>
    obtain ⟨t, rfl, ht⟩ := List.map_eq_singleton_iff.1 hts
    obtain ⟨value', rfl⟩ := Token.eq_number_of_outline ht
    exact ⟨_, .number value'⟩
  | parentheses _ ih =>
    obtain ⟨inner, rfl, hinner⟩ := hts.parenthesized
    obtain ⟨e', he'⟩ := ih hinner
    exact ⟨e', .parentheses he'⟩
  | choice hif hthen helse test _ _ _ _ iha ihb ihc ihd =>
    obtain ⟨front, l, elseBranch, rfl, hfront, hl, helseBranch⟩ := hts.append_cons
    obtain ⟨front, t, thenBranch, rfl, hfront, ht, hthenBranch⟩ := hfront.append_cons
    obtain ⟨i, condition, rfl, hi, hcondition⟩ := List.map_eq_cons_iff.1 hfront
    obtain ⟨inner, rfl, hinner⟩ := SameOutline.parenthesized hcondition
    obtain ⟨as, bs, rfl, has, hbs⟩ := hinner.append_symbol
    obtain ⟨cs, rfl, hcs⟩ := hthenBranch.parenthesized
    obtain ⟨ds, rfl, hds⟩ := helseBranch.parenthesized
    obtain ⟨a, ha⟩ := iha has
    obtain ⟨b, hb⟩ := ihb hbs
    obtain ⟨c, hc⟩ := ihc hcs
    obtain ⟨d, hd⟩ := ihd hds
    exact ⟨_, .choice (hif.of_outline hi) (hthen.of_outline ht) (helse.of_outline hl) test ha hb hc
      hd⟩
  | call hname pieces htakes _ ih =>
    obtain ⟨t, arguments, rfl, ht, harguments⟩ := List.map_eq_cons_iff.1 hts
    obtain ⟨inner, rfl, hinner⟩ := SameOutline.parenthesized harguments
    have hne : pieces ≠ [] := List.length_pos_iff.1 (Function.pos_of_takes htakes)
    obtain ⟨pieces', rfl, hlength, hderives⟩ := hinner.pieces hne fun p hp ts h => ih p hp h
    exact ⟨_, .call (hname.of_outline ht) pieces' (hlength ▸ htakes) hderives⟩

/-! ### Variables -/

theorem Located.bind_outline {value value' : String → Option Decimal} {t u v : Located}
    (hu : t.bind value = .ok u) (hv : t.bind value' = .ok v) :
    u.token.outline = v.token.outline := by
  rw [Located.bind] at hu hv
  cases ht : t.token with
  | number d =>
    simp only [ht] at hu hv
    cases hu
    cases hv
    rfl
  | symbol s =>
    simp only [ht] at hu hv
    cases hu
    cases hv
    rfl
  | name text =>
    simp only [ht] at hu hv
    by_cases hreserved : (Keyword.ofName? text).isSome
    · rw [if_pos hreserved] at hu hv
      cases hu
      cases hv
      rfl
    · rw [if_neg hreserved] at hu hv
      cases hvalue : value text <;> rw [hvalue] at hu <;> cases hu
      cases hvalue' : value' text <;> rw [hvalue'] at hv <;> cases hv
      rfl

theorem Located.bind_error {value : String → Option Decimal} {t : Located}
    (h : t.bind value = .error err) : ∃ name, err = .unknownVariable name := by
  rw [Located.bind] at h
  split at h
  · rename_i text _
    split at h
    · cases h
    · cases hvalue : value text <;> rw [hvalue] at h <;> cases h
      exact ⟨text, rfl⟩
  · cases h

theorem bindVariables_outline {value value' : String → Option Decimal} {ts us vs : List Located}
    (hus : bindVariables value ts = .ok us) (hvs : bindVariables value' ts = .ok vs) :
    SameOutline (us.map Located.token) (vs.map Located.token) := by
  rw [bindVariables] at hus hvs
  induction ts generalizing us vs with
  | nil =>
    cases hus
    cases hvs
    rfl
  | cons t ts ih =>
    rw [List.mapM_cons, bind_eq_ok] at hus hvs
    obtain ⟨u, hu, hus⟩ := hus
    obtain ⟨v, hv, hvs⟩ := hvs
    obtain ⟨us, hmoreU, h⟩ := bind_eq_ok.1 hus
    cases h
    obtain ⟨vs, hmoreV, h⟩ := bind_eq_ok.1 hvs
    cases h
    have houtline := ih hmoreU hmoreV
    simp only [SameOutline, List.map_cons, Located.bind_outline hu hv] at houtline ⊢
    rw [houtline]

theorem bindVariables_error {value : String → Option Decimal} {ts : List Located}
    (h : bindVariables value ts = .error err) : ∃ name, err = .unknownVariable name := by
  rw [bindVariables] at h
  induction ts with
  | nil => cases h
  | cons t ts ih =>
    rw [List.mapM_cons, bind_eq_error] at h
    rcases h with h | ⟨u, -, h⟩
    · exact Located.bind_error h
    · rcases bind_eq_error.1 h with h | ⟨us, -, h⟩
      · exact ih h
      · cases h

/-! ### Values -/

theorem elim_eq_error {x : Option Decimal}
    (h : x.elim (Except.error FormulaError.overflow) Except.ok = .error err) :
    err = .overflow := by
  cases x with
  | none =>
    cases h
    rfl
  | some d => cases h

theorem BinaryOp.apply_error {op : BinaryOp} {a b : Decimal} (h : op.apply a b = .error err) :
    err.OfNumbers := by
  cases op with
  | add | sub | mul =>
    obtain rfl := elim_eq_error h
    trivial
  | div =>
    rw [apply] at h
    by_cases hzero : b.isZero
    · rw [if_pos hzero] at h
      cases h
      trivial
    · rw [if_neg hzero] at h
      obtain rfl := elim_eq_error h
      trivial

/-- No function is applied to more or fewer arguments than it takes. -/
theorem Function.apply_error {f : Function} {arguments : List Decimal}
    (htakes : f.Takes arguments.length) (h : f.apply arguments = .error err) : err.OfNumbers := by
  have hpos := Function.pos_of_takes htakes
  cases arguments with
  | nil => cases hpos
  | cons a others =>
    cases f with
    | min | max | abs => cases h
    | round =>
      rcases htakes with hone | htwo
      · obtain rfl : others = [] := List.length_eq_zero_iff.1 (Nat.succ.inj hone)
        cases h
      · obtain ⟨digits, rfl⟩ := List.length_eq_one_iff.1 (Nat.succ.inj htwo)
        rw [apply] at h
        cases hdigits : digits.digitCount? with
        | none =>
          rw [hdigits] at h
          cases h
          trivial
        | some n =>
          rw [hdigits] at h
          cases h

theorem Expr.evalAll_length {es : List Expr} {values : List Decimal}
    (h : Expr.evalAll es = .ok values) : values.length = es.length := by
  induction es generalizing values with
  | nil =>
    cases h
    rfl
  | cons e es ih =>
    rw [evalAll, bind_eq_ok] at h
    obtain ⟨a, -, h⟩ := h
    obtain ⟨others, hothers, h⟩ := bind_eq_ok.1 h
    cases h
    rw [List.length_cons, List.length_cons, ih hothers]

theorem Expr.evalAll_error {es : List Expr} (h : Expr.evalAll es = .error err) :
    ∃ e ∈ es, e.eval = .error err := by
  induction es with
  | nil => cases h
  | cons e es ih =>
    rw [evalAll, bind_eq_error] at h
    rcases h with h | ⟨a, -, h⟩
    · exact ⟨e, List.mem_cons_self, h⟩
    · rcases bind_eq_error.1 h with h | ⟨others, -, h⟩
      · obtain ⟨e', he', h⟩ := ih h
        exact ⟨e', List.mem_cons_of_mem e he', h⟩
      · cases h

theorem Expr.eval_binary_error {op : BinaryOp} {a b : Expr}
    (ha : a.eval = .error err → err.OfNumbers) (hb : b.eval = .error err → err.OfNumbers)
    (h : (Expr.binary op a b).eval = .error err) : err.OfNumbers := by
  rw [eval, bind_eq_error] at h
  rcases h with h | ⟨x, -, h⟩
  · exact ha h
  · rcases bind_eq_error.1 h with h | ⟨y, -, h⟩
    · exact hb h
    · exact BinaryOp.apply_error h

/-- What is derived comes to a value or to an error of the numbers. -/
theorem Derives.eval_error {ts : List Token} (h : Derives level ts e)
    (herr : e.eval = .error err) : err.OfNumbers := by
  induction h with
  | sumOfProduct _ ih => exact ih herr
  | sum _ _ _ iha ihb => exact Expr.eval_binary_error iha ihb herr
  | productOfSigned _ ih => exact ih herr
  | product _ _ _ iha ihb => exact Expr.eval_binary_error iha ihb herr
  | signedOfOperand _ ih => exact ih herr
  | plus _ ih => exact ih herr
  | minus _ ih =>
    rw [Expr.eval, bind_eq_error] at herr
    rcases herr with h | ⟨a, -, h⟩
    · exact ih h
    · cases h
  | number value => cases herr
  | parentheses _ ih => exact ih herr
  | choice _ _ _ test _ _ _ _ iha ihb ihc ihd =>
    rw [Expr.eval, bind_eq_error] at herr
    rcases herr with ha | ⟨a, -, herr⟩
    · exact iha ha
    · rcases bind_eq_error.1 herr with hb | ⟨b, -, hbranch⟩
      · exact ihb hb
      · split at hbranch
        · exact ihc hbranch
        · exact ihd hbranch
  | call _ pieces htakes _ ih =>
    rw [Expr.eval, bind_eq_error] at herr
    rcases herr with harguments | ⟨values, hvalues, happly⟩
    · obtain ⟨e, he, herr⟩ := Expr.evalAll_error harguments
      obtain ⟨p, hp, rfl⟩ := List.mem_map.1 he
      exact ih p hp herr
    · have hlength := Expr.evalAll_length hvalues
      rw [List.length_map] at hlength
      exact Function.apply_error (hlength ▸ htakes) happly

/-- A formula that can be read comes to a value or to an error of the values. -/
theorem evaluate_error {formula : String} {names : List String}
    (hread : variablesOf formula = .ok names) {value : String → Option Decimal}
    (herr : evaluate formula value = .error err) : err.OfValues := by
  rw [variablesOf, bind_eq_ok] at hread
  obtain ⟨ts, hts, hread⟩ := hread
  obtain ⟨us, hus, hread⟩ := bind_eq_ok.1 hread
  obtain ⟨e, he, -⟩ := bind_eq_ok.1 hread
  rw [evaluate, hts] at herr
  have hbound : (do (← parse (← bindVariables value ts)).eval) = .error err := herr
  rcases bind_eq_error.1 hbound with hbind | ⟨vs, hvs, hparsed⟩
  · obtain ⟨name, rfl⟩ := bindVariables_error hbind
    trivial
  · obtain ⟨e', he'⟩ :=
      (parse_eq_ok_iff_derives.1 he).of_outline (bindVariables_outline hvs hus)
    rw [parse_eq_ok_iff_derives.2 he'] at hparsed
    exact (he'.eval_error hparsed).ofValues

end Casework.Formula
