import Casework.Proofs.Formula.Grammar

/-!
# The grammar without numbers of arguments

`Derivable` says which tokens are a phrase when a function may be called with any number of
arguments, none included. Whatever the grammar of formulas derives is such a phrase. Tokens are
viable if they are the front of one: then nothing is wrong with them as yet.
-/

namespace Casework.Formula

/-- Arguments between commas. -/
def commaRow (pieces : List (List Token)) : List Token := [.symbol .comma].intercalate pieces

theorem commaRow_singleton (piece : List Token) : commaRow [piece] = piece :=
  List.intercalate_singleton

theorem commaRow_cons {pieces : List (List Token)} (h : pieces ≠ []) (piece : List Token) :
    commaRow (piece :: pieces) = piece ++ .symbol .comma :: commaRow pieces := by
  rw [commaRow, List.intercalate_cons_of_ne_nil h, List.append_assoc]
  rfl

theorem prefix_commaRow (piece : List Token) (pieces : List (List Token)) :
    piece <+: commaRow (piece :: pieces) := by
  by_cases h : pieces = []
  · exact ⟨[], by rw [h, commaRow_singleton, List.append_nil]⟩
  · rw [commaRow_cons h]
    exact List.prefix_append ..

inductive Derivable : Level → List Token → Prop
  | sumOfProduct {ts : List Token} (h : Derivable .product ts) : Derivable .sum ts
  | sum {op : BinaryOp} (hop : op = .add ∨ op = .sub) {ts us : List Token}
      (hts : Derivable .sum ts) (hus : Derivable .product us) :
      Derivable .sum (ts ++ .symbol op.symbol :: us)
  | productOfSigned {ts : List Token} (h : Derivable .signed ts) : Derivable .product ts
  | product {op : BinaryOp} (hop : op = .mul ∨ op = .div) {ts us : List Token}
      (hts : Derivable .product ts) (hus : Derivable .signed us) :
      Derivable .product (ts ++ .symbol op.symbol :: us)
  | signedOfOperand {ts : List Token} (h : Derivable .operand ts) : Derivable .signed ts
  | plus {ts : List Token} (h : Derivable .signed ts) : Derivable .signed (.symbol .plus :: ts)
  | minus {ts : List Token} (h : Derivable .signed ts) : Derivable .signed (.symbol .minus :: ts)
  | number (value : Decimal) : Derivable .operand [.number value]
  | parentheses {ts : List Token} (h : Derivable .sum ts) : Derivable .operand (parenthesized ts)
  | choice {i t l : Token} (hif : Keyword.ifWord.Spells i) (hthen : Keyword.thenWord.Spells t)
      (helse : Keyword.elseWord.Spells l) (test : Comparison) {as bs cs ds : List Token}
      (ha : Derivable .sum as) (hb : Derivable .sum bs) (hc : Derivable .sum cs)
      (hd : Derivable .sum ds) :
      Derivable .operand (i :: parenthesized (as ++ .symbol test.symbol :: bs) ++
        t :: parenthesized cs ++ l :: parenthesized ds)
  /-- The name of a function and however many arguments. -/
  | call {f : Function} {t : Token} (hname : f.keyword.Spells t) (pieces : List (List Token))
      (h : ∀ ts ∈ pieces, Derivable .sum ts) :
      Derivable .operand (t :: parenthesized (commaRow pieces))

/-- The tokens are the front of a formula. -/
def Viable (ts : List Token) : Prop := ∃ more, Derivable .sum (ts ++ more)

/-- The tokens are a call of the function with `n` arguments. -/
def IsCall (f : Function) (n : Nat) (ts : List Token) : Prop :=
  ∃ t pieces, f.keyword.Spells t ∧ pieces.length = n ∧ (∀ us ∈ pieces, Derivable .sum us) ∧
    ts = t :: parenthesized (commaRow pieces)

theorem Derives.derivable {level : Level} {ts : List Token} {e : Expr} (h : Derives level ts e) :
    Derivable level ts := by
  induction h with
  | sumOfProduct _ ih => exact .sumOfProduct ih
  | sum hop _ _ iha ihb => exact .sum hop iha ihb
  | productOfSigned _ ih => exact .productOfSigned ih
  | product hop _ _ iha ihb => exact .product hop iha ihb
  | signedOfOperand _ ih => exact .signedOfOperand ih
  | plus _ ih => exact .plus ih
  | minus _ ih => exact .minus ih
  | number value => exact .number value
  | parentheses _ ih => exact .parentheses ih
  | choice hif hthen helse test _ _ _ _ iha ihb ihc ihd =>
    exact .choice hif hthen helse test iha ihb ihc ihd
  | call hname arguments _ _ ih =>
    refine .call hname (arguments.map Prod.fst) fun ts hts => ?_
    obtain ⟨p, hp, rfl⟩ := List.mem_map.1 hts
    exact ih p hp

theorem IsCall.derivable {f : Function} {n : Nat} {ts : List Token} (h : IsCall f n ts) :
    Derivable .operand ts := by
  obtain ⟨t, pieces, ht, -, hpieces, rfl⟩ := h
  exact .call ht pieces hpieces

/-- A number is a phrase at every level. -/
theorem derivable_number (level : Level) (value : Decimal) : Derivable level [.number value] := by
  have hsigned : Derivable .signed [.number value] := .signedOfOperand (.number value)
  cases level with
  | sum => exact .sumOfProduct (.productOfSigned hsigned)
  | product => exact .productOfSigned hsigned
  | signed => exact hsigned
  | operand => exact .number value

/-- No phrase begins with a closing parenthesis. -/
theorem Derivable.exists_cons {level : Level} {ts : List Token} (h : Derivable level ts) :
    ∃ t us, ts = t :: us ∧ t ≠ .symbol .rightParen := by
  have hword {k : Keyword} {t : Token} (hk : k.Spells t) : t ≠ .symbol .rightParen := by
    obtain ⟨name, rfl, -⟩ := hk
    nofun
  induction h with
  | sumOfProduct _ ih => exact ih
  | sum _ _ _ ih =>
    obtain ⟨t, us, rfl, ht⟩ := ih
    exact ⟨t, _, rfl, ht⟩
  | productOfSigned _ ih => exact ih
  | product _ _ _ ih =>
    obtain ⟨t, us, rfl, ht⟩ := ih
    exact ⟨t, _, rfl, ht⟩
  | signedOfOperand _ ih => exact ih
  | plus => exact ⟨_, _, rfl, nofun⟩
  | minus => exact ⟨_, _, rfl, nofun⟩
  | number value => exact ⟨_, _, rfl, nofun⟩
  | parentheses => exact ⟨_, _, rfl, nofun⟩
  | choice hif => exact ⟨_, _, rfl, hword hif⟩
  | call hname => exact ⟨_, _, rfl, hword hname⟩

end Casework.Formula
