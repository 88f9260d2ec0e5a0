import Mathlib.Data.List.Forall2
import Casework.Formula.Expr
import Casework.Formula.Error

/-!
# The grammar of formulas

`Derives` says which tokens stand for which tree, at each of the four levels of precedence. Sums and
products group to the left. A plus in front and parentheses leave no node in the tree. A word may be
written with small letters and capitals in any mixture, and a function takes so many arguments and
no others.
-/

namespace Casework.Formula

def BinaryOp.symbol : BinaryOp → Symbol
  | .add => .plus
  | .sub => .minus
  | .mul => .star
  | .div => .slash

def Comparison.symbol : Comparison → Symbol
  | .less => .less
  | .greater => .greater
  | .lessEqual => .lessEqual
  | .greaterEqual => .greaterEqual
  | .equal => .equal

def Function.keyword : Function → Keyword
  | .min => .minWord
  | .max => .maxWord
  | .round => .roundWord
  | .abs => .absWord

/-- The character is the small letter or the capital that belongs to it. -/
def IsLetter (letter c : Char) : Prop := c = letter ∨ c = letter.toUpper

/-- The token is the word, letter by letter. -/
def Keyword.Spells (k : Keyword) (t : Token) : Prop :=
  ∃ name, t = .name name ∧ List.Forall₂ IsLetter k.text.toList name.toList

/-- How many arguments a function takes. -/
def Function.Takes : Function → Nat → Prop
  | .min, n | .max, n => 2 ≤ n
  | .round, n => n = 1 ∨ n = 2
  | .abs, n => n = 1

def parenthesized (ts : List Token) : List Token :=
  .symbol .leftParen :: (ts ++ [.symbol .rightParen])

inductive Level where
  | sum | product | signed | operand
deriving DecidableEq, Repr

inductive Derives : Level → List Token → Expr → Prop
  | sumOfProduct {ts : List Token} {e : Expr} (h : Derives .product ts e) : Derives .sum ts e
  | sum {op : BinaryOp} (hop : op = .add ∨ op = .sub) {ts us : List Token} {a b : Expr}
      (ha : Derives .sum ts a) (hb : Derives .product us b) :
      Derives .sum (ts ++ .symbol op.symbol :: us) (.binary op a b)
  | productOfSigned {ts : List Token} {e : Expr} (h : Derives .signed ts e) :
      Derives .product ts e
  | product {op : BinaryOp} (hop : op = .mul ∨ op = .div) {ts us : List Token} {a b : Expr}
      (ha : Derives .product ts a) (hb : Derives .signed us b) :
      Derives .product (ts ++ .symbol op.symbol :: us) (.binary op a b)
  | signedOfOperand {ts : List Token} {e : Expr} (h : Derives .operand ts e) :
      Derives .signed ts e
  | plus {ts : List Token} {e : Expr} (h : Derives .signed ts e) :
      Derives .signed (.symbol .plus :: ts) e
  | minus {ts : List Token} {e : Expr} (h : Derives .signed ts e) :
      Derives .signed (.symbol .minus :: ts) (.negate e)
  | number (value : Decimal) : Derives .operand [.number value] (.number value)
  | parentheses {ts : List Token} {e : Expr} (h : Derives .sum ts e) :
      Derives .operand (parenthesized ts) e
  /-- `if (a test b) then (c) else (d)` -/
  | choice {i t l : Token} (hif : Keyword.ifWord.Spells i) (hthen : Keyword.thenWord.Spells t)
      (helse : Keyword.elseWord.Spells l) (test : Comparison) {as bs cs ds : List Token}
      {a b c d : Expr} (ha : Derives .sum as a) (hb : Derives .sum bs b) (hc : Derives .sum cs c)
      (hd : Derives .sum ds d) :
      Derives .operand (i :: parenthesized (as ++ .symbol test.symbol :: bs) ++
        t :: parenthesized cs ++ l :: parenthesized ds) (.choice test a b c d)
  /-- The name of a function and as many arguments as it takes, between commas. -/
  | call {f : Function} {t : Token} (hname : f.keyword.Spells t)
      (arguments : List (List Token × Expr)) (htakes : f.Takes arguments.length)
      (h : ∀ p ∈ arguments, Derives .sum p.1 p.2) :
      Derives .operand (t :: parenthesized
        ([.symbol .comma].intercalate (arguments.map Prod.fst))) (.call f (arguments.map Prod.snd))

/-! ### Words -/

theorem toNat_toLower (c : Char) :
    c.toLower.toNat = if 65 ≤ c.toNat ∧ c.toNat ≤ 90 then c.toNat + 32 else c.toNat := by
  have hcapital : (c.val ≥ 'A'.val ∧ c.val ≤ 'Z'.val) ↔ 65 ≤ c.toNat ∧ c.toNat ≤ 90 := Iff.rfl
  unfold Char.toLower
  by_cases h : 65 ≤ c.toNat ∧ c.toNat ≤ 90
  · rw [dif_pos (hcapital.2 h), if_pos h]
    show (c.toNat + 32) % 2 ^ 32 = c.toNat + 32
    omega
  · rw [dif_neg (mt hcapital.1 h), if_neg h]

theorem toNat_toUpper {c : Char} (hlow : 97 ≤ c.toNat) (hhigh : c.toNat ≤ 122) :
    c.toUpper.toNat = c.toNat - 32 := by
  have hlow' : 97 ≤ c.val.toNat := hlow
  have hhigh' : c.val.toNat ≤ 122 := hhigh
  have hshift : ('A'.val - 'a'.val).toNat = 2 ^ 32 - 32 := by decide
  unfold Char.toUpper
  rw [dif_pos ⟨hlow, hhigh⟩]
  show (c.val + ('A'.val - 'a'.val)).toNat = c.val.toNat - 32
  rw [UInt32.toNat_add, hshift]
  omega

theorem toLower_eq_iff {letter : Char} (hlow : 97 ≤ letter.toNat) (hhigh : letter.toNat ≤ 122)
    (c : Char) : c.toLower = letter ↔ IsLetter letter c := by
  rw [IsLetter, ← Char.toNat_inj, ← Char.toNat_inj, ← Char.toNat_inj, toNat_toLower,
    toNat_toUpper hlow hhigh]
  split <;> omega

theorem map_toLower_eq_iff {letters cs : List Char}
    (h : ∀ letter ∈ letters, 97 ≤ letter.toNat ∧ letter.toNat ≤ 122) :
    cs.map Char.toLower = letters ↔ List.Forall₂ IsLetter letters cs := by
  induction letters generalizing cs with
  | nil => simp
  | cons letter letters ih =>
    obtain ⟨⟨hlow, hhigh⟩, hletters⟩ := List.forall_mem_cons.1 h
    cases cs with
    | nil => simp
    | cons c cs =>
      rw [List.map_cons, List.cons.injEq, List.forall₂_cons, toLower_eq_iff hlow hhigh,
        ih hletters]

theorem Keyword.text_small (k : Keyword) :
    ∀ letter ∈ k.text.toList, 97 ≤ letter.toNat ∧ letter.toNat ≤ 122 := by
  cases k <;> simp [text]

theorem Keyword.ofName?_eq_some {name : String} {k : Keyword} :
    Keyword.ofName? name = some k ↔ lowerAscii name = k.text.toList := by
  constructor
  · intro h
    rw [ofName?] at h
    split at h <;> cases h <;> (rename_i hname; rw [hname]; rfl)
  · intro h
    rw [ofName?, h]
    cases k <;> rfl

theorem Keyword.spells_iff {k : Keyword} {t : Token} : k.Spells t ↔ t.keyword? = some k := by
  cases t with
  | name text =>
    rw [Token.keyword?, ofName?_eq_some, lowerAscii, map_toLower_eq_iff k.text_small]
    constructor
    · rintro ⟨_, h, hname⟩
      cases h
      exact hname
    · intro h
      exact ⟨text, rfl, h⟩
  | number value =>
    constructor
    · rintro ⟨_, h, _⟩
      cases h
    · intro h
      cases h
  | symbol s =>
    constructor
    · rintro ⟨_, h, _⟩
      cases h
    · intro h
      cases h

theorem Function.takes_iff {f : Function} {n : Nat} : f.takes n = true ↔ f.Takes n := by
  cases f <;> simp [takes, Takes]

end Casework.Formula
