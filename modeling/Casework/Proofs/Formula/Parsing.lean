import Mathlib.Data.Set.Subsingleton
import Casework.Proofs.Formula.Grammar
import Casework.Proofs.Formula.Reading

/-!
# The parser reads the grammar

Whatever the parser reads, the grammar derives: a reader takes a front of the tokens, by induction on
their number. Conversely each derivation is read, by induction on the derivation. Behind a sum or a
product the tokens may go on, so what is shown of these is that the reader comes to where it stands
when it has read the row behind them, too.
-/

namespace Casework.Formula

variable {ts us rest : List Located} {e : Expr}

/-! ### Operators -/

theorem sumOp?_eq_some {t : Token} {op : BinaryOp} :
    sumOp? t = some op ↔ (op = .add ∨ op = .sub) ∧ t = .symbol op.symbol := by
  constructor
  · intro h
    rw [sumOp?.eq_def] at h
    split at h <;> cases h
    · exact ⟨.inl rfl, rfl⟩
    · exact ⟨.inr rfl, rfl⟩
  · rintro ⟨rfl | rfl, rfl⟩ <;> rfl

theorem productOp?_eq_some {t : Token} {op : BinaryOp} :
    productOp? t = some op ↔ (op = .mul ∨ op = .div) ∧ t = .symbol op.symbol := by
  constructor
  · intro h
    rw [productOp?.eq_def] at h
    split at h <;> cases h
    · exact ⟨.inl rfl, rfl⟩
    · exact ⟨.inr rfl, rfl⟩
  · rintro ⟨rfl | rfl, rfl⟩ <;> rfl

theorem comparison?_eq_some {t : Token} {test : Comparison} :
    comparison? t = some test ↔ t = .symbol test.symbol := by
  constructor
  · intro h
    rw [comparison?.eq_def] at h
    split at h <;> cases h <;> rfl
  · rintro rfl
    cases test <;> rfl

theorem function?_eq_some {k : Keyword} {f : Function} :
    k.function? = some f ↔ k = f.keyword := by
  cases k <;> cases f <;> simp [Keyword.function?, Function.keyword]

/-! ### What is read is derived -/

/-- Whatever is read from the front of the tokens is derived at the level. -/
def SoundAt (level : Level) (operand : List Located → Expr → List Located → Prop)
    (ts : List Located) : Prop :=
  ∀ {e rest}, operand ts e rest →
    ∃ front, ts = front ++ rest ∧ Derives level (front.map Located.token) e

theorem row_sound {op? : Token → Option BinaryOp}
    {operand : List Located → Expr → List Located → Prop} {outer inner : Level}
    (hgroup : ∀ {t op ts us a b}, op? t = some op → Derives outer ts a → Derives inner us b →
      Derives outer (ts ++ t :: us) (.binary op a b))
    {others : List (BinaryOp × Expr)} (h : Row op? operand ts others rest)
    (hinner : ∀ us, us.length < ts.length → SoundAt inner operand us) {front : List Token}
    {a : Expr} (ha : Derives outer front a) :
    ∃ more, ts = more ++ rest ∧
      Derives outer (front ++ more.map Located.token) (foldLeft a others) := by
  induction h generalizing front a with
  | done => exact ⟨[], rfl, by simpa [foldLeft] using ha⟩
  | @more t us mid rest op b others hop hb _ ih =>
    obtain ⟨frontB, rfl, hderives⟩ := hinner us length_lt_cons hb
    have hshorter : ∀ vs : List Located, vs.length < mid.length → SoundAt inner operand vs := by
      intro vs hvs
      refine hinner vs ?_
      simp only [List.length_cons, List.length_append]
      omega
    obtain ⟨more, rfl, hmore⟩ := ih hshorter (hgroup hop ha hderives)
    refine ⟨t :: frontB ++ more, by simp, ?_⟩
    simpa [foldLeft] using hmore

/-- Everything that is read from shorter tokens is derived. -/
structure SoundBelow (n : Nat) : Prop where
  sum : ∀ us : List Located, us.length < n → SoundAt .sum (fun us => Reads (readSum us)) us
  signed : ∀ us : List Located, us.length < n → SoundAt .signed (fun us => Reads (readSigned us)) us

theorem parenthesized_sound {n : Nat} (hbelow : SoundBelow n) (hts : ts.length ≤ n)
    (h : Reads (readParenthesized ts) e rest) :
    ∃ inner front, ts = front ++ rest ∧ front.map Located.token = parenthesized inner ∧
      Derives .sum inner e := by
  obtain ⟨t, us, u, rfl, ht, hinner, hu⟩ := readParenthesized_reads.1 h
  obtain ⟨front, rfl, hderives⟩ := hbelow.sum us (Nat.lt_of_succ_le hts) hinner
  refine ⟨front.map Located.token, t :: (front ++ [u]), by simp, ?_, hderives⟩
  simp [parenthesized, ht, hu]

theorem argumentRow_sound {n : Nat} (hbelow : SoundBelow n) {arguments : List Expr}
    (h : ArgumentRow ts arguments rest) (hts : ts.length < n) :
    ∃ pieces : List (List Token × Expr), ∃ front, ts = front ++ rest ∧
      front.map Located.token =
        [.symbol .comma].intercalate (pieces.map Prod.fst) ++ [.symbol .rightParen] ∧
      arguments = pieces.map Prod.snd ∧ pieces ≠ [] ∧ ∀ p ∈ pieces, Derives .sum p.1 p.2 := by
  induction h with
  | @last ts rest a t ha ht =>
    obtain ⟨front, rfl, hderives⟩ := hbelow.sum ts hts ha
    refine ⟨[(front.map Located.token, a)], front ++ [t], by simp, ?_, rfl, by simp, ?_⟩
    · simp [ht]
    · simpa using hderives
  | @more ts us rest a others t ha ht _ ih =>
    obtain ⟨front, rfl, hderives⟩ := hbelow.sum ts hts ha
    have hus : us.length < n := by
      simp only [List.length_cons, List.length_append] at hts
      omega
    obtain ⟨pieces, front', rfl, hfront', rfl, hne, hpieces⟩ := ih hus
    refine ⟨(front.map Located.token, a) :: pieces, front ++ t :: front', by simp, ?_, rfl,
      by simp, ?_⟩
    · rw [List.map_cons, List.intercalate_cons_of_ne_nil (by simpa using hne)]
      simp [ht, hfront']
    · intro p hp
      cases hp with
      | head => exact hderives
      | tail _ hp => exact hpieces p hp

theorem choice_sound {n : Nat} (hbelow : SoundBelow n) (h : ChoiceParts ts e rest)
    (hts : ts.length < n) {i : Located} (hi : i.token.keyword? = some .ifWord) :
    ∃ front, ts = front ++ rest ∧ Derives .operand (i.token :: front.map Located.token) e := by
  obtain @⟨t, c, u, k, l, _, _, _, _, rest, test, _, _, _, _, ht, ha, hc, hb, hu, hk, hthen, hl,
    helse⟩ := h
  simp only [List.length_cons] at hts
  obtain ⟨frontA, rfl, hderivesA⟩ := hbelow.sum _ (by omega) ha
  simp only [List.length_append, List.length_cons] at hts
  obtain ⟨frontB, rfl, hderivesB⟩ := hbelow.sum _ (by omega) hb
  simp only [List.length_append, List.length_cons] at hts
  obtain ⟨cs, frontC, rfl, hfrontC, hderivesC⟩ := parenthesized_sound hbelow (by omega) hthen
  simp only [List.length_append, List.length_cons] at hts
  obtain ⟨ds, frontD, rfl, hfrontD, hderivesD⟩ := parenthesized_sound hbelow (by omega) helse
  have hchoice := Derives.choice (Keyword.spells_iff.2 hi) (Keyword.spells_iff.2 hk)
    (Keyword.spells_iff.2 hl) test hderivesA hderivesB hderivesC hderivesD
  rw [← hfrontC, ← hfrontD] at hchoice
  refine ⟨t :: frontA ++ c :: frontB ++ u :: k :: frontC ++ l :: frontD, by simp, ?_⟩
  simpa [parenthesized, ht, hu, comparison?_eq_some.1 hc] using hchoice

theorem call_sound {n : Nat} (hbelow : SoundBelow n) {function : Function} {arguments : List Expr}
    (h : Reads (readArguments us) arguments rest) (hus : us.length < n)
    (htakes : function.Takes arguments.length) {t : Located}
    (hname : t.token.keyword? = some function.keyword) : ∃ front, us = front ++ rest ∧
      Derives .operand (t.token :: front.map Located.token) (.call function arguments) := by
  obtain ⟨o, u, vs, rfl, ho, h⟩ := readArguments_reads.1 h
  by_cases hu : u.token = .symbol .rightParen
  · rw [if_pos hu] at h
    obtain ⟨rfl, rfl⟩ := h
    cases function <;> simp [Function.Takes] at htakes
  · rw [if_neg hu] at h
    obtain ⟨pieces, front, hfront, htokens, rfl, -, hpieces⟩ :=
      argumentRow_sound hbelow h (Nat.lt_of_succ_lt hus)
    rw [List.length_map] at htakes
    have hcall := Derives.call (Keyword.spells_iff.2 hname) pieces htakes hpieces
    refine ⟨o :: front, by rw [hfront]; rfl, ?_⟩
    simpa [parenthesized, ho, htokens] using hcall

theorem not_reads_signed_nil : ¬ Reads (readSigned []) e rest := by
  rintro ⟨_, h⟩
  rw [readSigned.eq_def] at h
  cases h

theorem name_sound {n : Nat} (hbelow : SoundBelow n) (hus : us.length < n) {t : Located}
    {text : String} (ht : t.token = .name text) (h : SignedBehind us e rest (.name text)) :
    ∃ front, us = front ++ rest ∧ Derives .operand (t.token :: front.map Located.token) e := by
  rw [SignedBehind] at h
  cases hkeyword : Keyword.ofName? text with
  | none =>
    rw [hkeyword] at h
    exact h.elim
  | some keyword =>
    rw [hkeyword] at h
    have hword : t.token.keyword? = some keyword := by rw [ht, Token.keyword?, hkeyword]
    cases keyword with
    | ifWord => exact choice_sound hbelow (readChoice_reads.1 h) hus hword
    | thenWord | elseWord | minWord | maxWord | roundWord | absWord =>
      obtain ⟨function, hfunction, arguments, harguments, htakes, rfl⟩ := h
      rw [function?_eq_some.1 hfunction] at hword
      exact call_sound hbelow harguments hus (Function.takes_iff.1 htakes) hword

theorem signed_sound (hbelow : SoundBelow ts.length) :
    SoundAt .signed (fun us => Reads (readSigned us)) ts := by
  intro e rest h
  cases ts with
  | nil => exact absurd h not_reads_signed_nil
  | cons t us =>
    have hus : us.length < (t :: us).length := length_lt_cons
    have hbehind := readSigned_reads.1 h
    cases ht : t.token with
    | number value =>
      rw [ht] at hbehind
      obtain ⟨rfl, rfl⟩ := hbehind
      refine ⟨[t], rfl, .signedOfOperand ?_⟩
      rw [List.map_singleton, ht]
      exact .number value
    | symbol s =>
      rw [ht] at hbehind
      cases s with
      | minus =>
        obtain ⟨a, ha, rfl⟩ := hbehind
        obtain ⟨front, rfl, hderives⟩ := hbelow.signed us hus ha
        refine ⟨t :: front, rfl, ?_⟩
        rw [List.map_cons, ht]
        exact .minus hderives
      | plus =>
        obtain ⟨front, rfl, hderives⟩ := hbelow.signed us hus hbehind
        refine ⟨t :: front, rfl, ?_⟩
        rw [List.map_cons, ht]
        exact .plus hderives
      | leftParen =>
        obtain ⟨u, hinner, hu⟩ := hbehind
        obtain ⟨front, rfl, hderives⟩ := hbelow.sum us hus hinner
        refine ⟨t :: (front ++ [u]), by simp, .signedOfOperand ?_⟩
        have hparens := Derives.parentheses hderives
        simpa [parenthesized, ht, hu] using hparens
      | star | slash | rightParen | comma | less | greater | lessEqual | greaterEqual | equal =>
        exact hbehind.elim
    | name text =>
      rw [ht] at hbehind
      obtain ⟨front, rfl, hderives⟩ := name_sound hbelow hus ht hbehind
      exact ⟨t :: front, rfl, .signedOfOperand hderives⟩

theorem derives_binary_product {t : Token} {op : BinaryOp} {ts us : List Token} {a b : Expr}
    (hop : productOp? t = some op) (ha : Derives .product ts a) (hb : Derives .signed us b) :
    Derives .product (ts ++ t :: us) (.binary op a b) := by
  obtain ⟨hkind, rfl⟩ := productOp?_eq_some.1 hop
  exact .product hkind ha hb

theorem derives_binary_sum {t : Token} {op : BinaryOp} {ts us : List Token} {a b : Expr}
    (hop : sumOp? t = some op) (ha : Derives .sum ts a) (hb : Derives .product us b) :
    Derives .sum (ts ++ t :: us) (.binary op a b) := by
  obtain ⟨hkind, rfl⟩ := sumOp?_eq_some.1 hop
  exact .sum hkind ha hb

theorem product_sound (hbelow : SoundBelow ts.length) :
    SoundAt .product (fun us => Reads (readProduct us)) ts := by
  intro e rest h
  obtain ⟨a, mid, others, ha, hothers, rfl⟩ := readProduct_reads.1 h
  have hmid := ha.shorter
  obtain ⟨front, rfl, hderives⟩ := signed_sound hbelow ha
  obtain ⟨more, rfl, hrow⟩ := row_sound derives_binary_product (readFactors_reads.1 hothers)
    (fun us hus => hbelow.signed us (Nat.lt_trans hus hmid)) (.productOfSigned hderives)
  exact ⟨front ++ more, by simp, by simpa using hrow⟩

theorem sum_sound (hbelow : SoundBelow ts.length) :
    SoundAt .sum (fun us => Reads (readSum us)) ts := by
  intro e rest h
  obtain ⟨a, mid, others, ha, hothers, rfl⟩ := readSum_reads.1 h
  have hmid := ha.shorter
  obtain ⟨front, rfl, hderives⟩ := product_sound hbelow ha
  have hproducts : ∀ us : List Located, us.length < mid.length →
      SoundAt .product (fun us => Reads (readProduct us)) us := by
    intro us hus
    refine product_sound ⟨?_, ?_⟩
    · exact fun vs hvs => hbelow.sum vs (by omega)
    · exact fun vs hvs => hbelow.signed vs (by omega)
  obtain ⟨more, rfl, hrow⟩ := row_sound derives_binary_sum (readSummands_reads.1 hothers)
    hproducts (.sumOfProduct hderives)
  exact ⟨front ++ more, by simp, by simpa using hrow⟩

/-- By induction on the number of tokens. -/
theorem soundBelow (n : Nat) : SoundBelow n := by
  induction n with
  | zero => exact ⟨fun _ h => absurd h (Nat.not_lt_zero _), fun _ h => absurd h (Nat.not_lt_zero _)⟩
  | succ n ih =>
    have hbelow : ∀ us : List Located, us.length < n + 1 → SoundBelow us.length := by
      intro us hus
      exact ⟨fun vs hvs => ih.sum vs (by omega), fun vs hvs => ih.signed vs (by omega)⟩
    exact ⟨fun us hus => sum_sound (hbelow us hus), fun us hus => signed_sound (hbelow us hus)⟩

/-! ### What is derived is read -/

def SumRow : List Located → List (BinaryOp × Expr) → List Located → Prop :=
  Row sumOp? fun us b mid => Reads (readProduct us) b mid

def ProductRow : List Located → List (BinaryOp × Expr) → List Located → Prop :=
  Row productOp? fun us b mid => Reads (readSigned us) b mid

/-- The tokens are read as the tree, at the level and whatever stands behind them. A row behind a
sum or a product is read along with it. -/
def Complete : Level → List Token → Expr → Prop
  | .sum, ts, e => ∀ ⦃front rest last : List Located⦄ ⦃others⦄, front.map Located.token = ts →
      NoOp productOp? rest → SumRow rest others last →
      Reads (readSum (front ++ rest)) (foldLeft e others) last
  | .product, ts, e => ∀ ⦃front rest last : List Located⦄ ⦃others⦄,
      front.map Located.token = ts → ProductRow rest others last →
      Reads (readProduct (front ++ rest)) (foldLeft e others) last
  | .signed, ts, e | .operand, ts, e => ∀ ⦃front rest : List Located⦄,
      front.map Located.token = ts → Reads (readSigned (front ++ rest)) e rest

/-- A sum is read up to a token that is no operator. -/
theorem Complete.sum_before {ts : List Token} (h : Complete .sum ts e) {front : List Located}
    (hfront : front.map Located.token = ts) {u : Located} (hsum : sumOp? u.token = none)
    (hproduct : productOp? u.token = none) :
    Reads (readSum (front ++ u :: rest)) e (u :: rest) := by
  have hnone : NoOp productOp? (u :: rest) := by
    intro t ht
    cases ht
    exact hproduct
  refine h hfront hnone (.done ?_)
  intro t ht
  cases ht
  exact hsum

theorem map_token_eq_parenthesized {ts : List Located} {inner : List Token}
    (h : ts.map Located.token = parenthesized inner) : ∃ t front u, ts = t :: (front ++ [u]) ∧
      t.token = .symbol .leftParen ∧ front.map Located.token = inner ∧
      u.token = .symbol .rightParen := by
  obtain ⟨t, us, rfl, ht, hus⟩ := List.map_eq_cons_iff.1 h
  obtain ⟨front, last, rfl, hfront, hlast⟩ := List.map_eq_append_iff.1 hus
  obtain ⟨u, rfl, hu⟩ := List.map_eq_singleton_iff.1 hlast
  exact ⟨t, front, u, rfl, ht, hfront, hu⟩

theorem readParenthesized_complete {inner : List Token} (h : Complete .sum inner e)
    {front : List Located} (hfront : front.map Located.token = parenthesized inner) :
    Reads (readParenthesized (front ++ rest)) e rest := by
  obtain ⟨t, front, u, rfl, ht, hinner, hu⟩ := map_token_eq_parenthesized hfront
  refine readParenthesized_reads.2 ⟨t, front ++ u :: rest, u, by simp, ht, ?_, hu⟩
  exact h.sum_before hinner (by rw [hu]; rfl) (by rw [hu]; rfl)

theorem argumentRow_complete {pieces : List (List Token × Expr)} (hne : pieces ≠ [])
    (hpieces : ∀ p ∈ pieces, Complete .sum p.1 p.2) {front : List Located}
    (hfront : front.map Located.token =
      [.symbol .comma].intercalate (pieces.map Prod.fst) ++ [.symbol .rightParen]) :
    ArgumentRow (front ++ rest) (pieces.map Prod.snd) rest := by
  induction pieces generalizing front with
  | nil => exact absurd rfl hne
  | cons p pieces ih =>
    have hp := hpieces p List.mem_cons_self
    cases pieces with
    | nil =>
      simp only [List.map_cons, List.map_nil, List.intercalate_singleton] at hfront
      obtain ⟨frontP, last, rfl, hfrontP, hlast⟩ := List.map_eq_append_iff.1 hfront
      obtain ⟨u, rfl, hu⟩ := List.map_eq_singleton_iff.1 hlast
      rw [List.append_assoc]
      exact .last (hp.sum_before hfrontP (by rw [hu]; rfl) (by rw [hu]; rfl)) hu
    | cons q pieces =>
      rw [List.map_cons, List.intercalate_cons_of_ne_nil (by simp), List.append_assoc,
        List.append_assoc] at hfront
      obtain ⟨frontP, last, rfl, hfrontP, hlast⟩ := List.map_eq_append_iff.1 hfront
      obtain ⟨u, more, rfl, hu, hmore⟩ := List.map_eq_cons_iff.1 hlast
      have hothers := ih (List.cons_ne_nil q pieces)
        (fun r hr => hpieces r (List.mem_cons_of_mem p hr)) hmore
      rw [List.append_assoc]
      exact .more (hp.sum_before hfrontP (by rw [hu]; rfl) (by rw [hu]; rfl)) hu hothers

theorem choice_complete {i t l : Token} (hif : Keyword.ifWord.Spells i)
    (hthen : Keyword.thenWord.Spells t) (helse : Keyword.elseWord.Spells l) (test : Comparison)
    {as bs cs ds : List Token} {a b c d : Expr} (ha : Complete .sum as a)
    (hb : Complete .sum bs b) (hc : Complete .sum cs c) (hd : Complete .sum ds d) :
    Complete .operand (i :: parenthesized (as ++ .symbol test.symbol :: bs) ++
      t :: parenthesized cs ++ l :: parenthesized ds) (.choice test a b c d) := by
  intro front rest hfront
  rw [List.append_assoc] at hfront
  obtain ⟨w, front, rfl, hw, hfront⟩ := List.map_eq_cons_iff.1 hfront
  obtain ⟨condition, front, rfl, hcondition, hfront⟩ := List.map_eq_append_iff.1 hfront
  obtain ⟨k, front, rfl, hk, hfront⟩ := List.map_eq_cons_iff.1 hfront
  obtain ⟨thenFront, front, rfl, hthenFront, hfront⟩ := List.map_eq_append_iff.1 hfront
  obtain ⟨m, elseFront, rfl, hm, helseFront⟩ := List.map_eq_cons_iff.1 hfront
  obtain ⟨o, inner, u, rfl, ho, hinner, hu⟩ := map_token_eq_parenthesized hcondition
  obtain ⟨frontA, inner, rfl, hfrontA, hinner⟩ := List.map_eq_append_iff.1 hinner
  obtain ⟨x, frontB, rfl, hx, hfrontB⟩ := List.map_eq_cons_iff.1 hinner
  subst hw hk hm
  have hparts : ChoiceParts (o :: (frontA ++ x :: (frontB ++ u :: k :: (thenFront ++ m ::
      (elseFront ++ rest))))) (.choice test a b c d) rest := by
    refine .intro ho (ha.sum_before hfrontA ?_ ?_) (comparison?_eq_some.2 hx)
      (hb.sum_before hfrontB ?_ ?_) hu (Keyword.spells_iff.1 hthen)
      (readParenthesized_complete hc hthenFront) (Keyword.spells_iff.1 helse)
      (readParenthesized_complete hd helseFront)
    · rw [hx]
      cases test <;> rfl
    · rw [hx]
      cases test <;> rfl
    · rw [hu]
      rfl
    · rw [hu]
      rfl
  have hassoc : w :: (o :: (frontA ++ x :: frontB ++ [u]) ++ k :: (thenFront ++ m :: elseFront)) ++
      rest = w :: o :: (frontA ++ x :: (frontB ++ u :: k :: (thenFront ++ m :: (elseFront ++
        rest)))) := by simp
  rw [hassoc]
  exact (readSigned_if (Keyword.spells_iff.1 hif)).2 (readChoice_reads.2 hparts)

/-- No sum begins with a closing parenthesis. -/
theorem head_of_readSum (h : Reads (readSum ts) e rest) :
    ∃ t us, ts = t :: us ∧ t.token ≠ .symbol .rightParen := by
  obtain ⟨a, _, _, ha, _⟩ := readSum_reads.1 h
  obtain ⟨b, _, _, hb, _⟩ := readProduct_reads.1 ha
  cases ts with
  | nil => exact absurd hb not_reads_signed_nil
  | cons t us =>
    refine ⟨t, us, rfl, ?_⟩
    intro ht
    have hbehind := readSigned_reads.1 hb
    rw [ht] at hbehind
    exact hbehind

theorem ArgumentRow.head {arguments : List Expr} (h : ArgumentRow ts arguments rest) :
    ∃ t us, ts = t :: us ∧ t.token ≠ .symbol .rightParen := by
  cases h with
  | last ha _ => exact head_of_readSum ha
  | more ha _ _ => exact head_of_readSum ha

theorem Function.pos_of_takes {f : Function} {n : Nat} (h : f.Takes n) : 0 < n := by
  cases f <;> simp only [Takes] at h <;> omega

theorem call_complete {f : Function} {t : Token} (hname : f.keyword.Spells t)
    (pieces : List (List Token × Expr)) (htakes : f.Takes pieces.length)
    (hpieces : ∀ p ∈ pieces, Complete .sum p.1 p.2) :
    Complete .operand (t :: parenthesized ([.symbol .comma].intercalate (pieces.map Prod.fst)))
      (.call f (pieces.map Prod.snd)) := by
  intro front rest hfront
  obtain ⟨w, inner, rfl, rfl, hinner⟩ := List.map_eq_cons_iff.1 hfront
  obtain ⟨o, more, rfl, ho, hmore⟩ := List.map_eq_cons_iff.1 hinner
  have hne : pieces ≠ [] := List.length_pos_iff.1 (Function.pos_of_takes htakes)
  have hrow : ArgumentRow (more ++ rest) (pieces.map Prod.snd) rest :=
    argumentRow_complete hne hpieces hmore
  obtain ⟨u, us, hus, hu⟩ := hrow.head
  have harguments : Reads (readArguments (o :: (more ++ rest))) (pieces.map Prod.snd) rest := by
    refine readArguments_reads.2 ⟨o, u, us, by rw [hus], ho, ?_⟩
    rw [if_neg hu, ← hus]
    exact hrow
  refine (readSigned_call (Keyword.spells_iff.1 hname) (function?_eq_some.2 rfl)).2 ?_
  exact ⟨_, harguments, Function.takes_iff.2 (by rwa [List.length_map]), rfl⟩

/-- By induction on the derivation. -/
theorem complete {level : Level} {ts : List Token} (h : Derives level ts e) :
    Complete level ts e := by
  induction h with
  | @sumOfProduct ts e _ ih =>
    intro front rest last others hfront hnone hrow
    have hproduct := ih hfront (.done hnone)
    exact readSum_reads.2 ⟨e, rest, others, hproduct, readSummands_reads.2 hrow, rfl⟩
  | @sum op hop ts us a b _ _ iha ihb =>
    intro front rest last others hfront hnone hrow
    obtain ⟨frontA, more, rfl, hfrontA, hmore⟩ := List.map_eq_append_iff.1 hfront
    obtain ⟨t, frontB, rfl, ht, hfrontB⟩ := List.map_eq_cons_iff.1 hmore
    have hno : NoOp productOp? (t :: (frontB ++ rest)) := by
      intro u hu
      cases hu
      rw [ht]
      rcases hop with rfl | rfl <;> rfl
    have hb := ihb hfrontB (.done hnone)
    have hall := iha hfrontA hno (.more (sumOp?_eq_some.2 ⟨hop, ht⟩) hb hrow)
    rw [List.append_assoc]
    exact hall
  | @productOfSigned ts e _ ih =>
    intro front rest last others hfront hrow
    exact readProduct_reads.2 ⟨e, rest, others, ih hfront, readFactors_reads.2 hrow, rfl⟩
  | @product op hop ts us a b _ _ iha ihb =>
    intro front rest last others hfront hrow
    obtain ⟨frontA, more, rfl, hfrontA, hmore⟩ := List.map_eq_append_iff.1 hfront
    obtain ⟨t, frontB, rfl, ht, hfrontB⟩ := List.map_eq_cons_iff.1 hmore
    have hall := iha hfrontA (.more (productOp?_eq_some.2 ⟨hop, ht⟩) (ihb hfrontB) hrow)
    rw [List.append_assoc]
    exact hall
  | signedOfOperand _ ih => exact ih
  | plus _ ih =>
    intro front rest hfront
    obtain ⟨t, inner, rfl, ht, hinner⟩ := List.map_eq_cons_iff.1 hfront
    refine readSigned_reads.2 ?_
    rw [ht]
    exact ih hinner
  | minus _ ih =>
    intro front rest hfront
    obtain ⟨t, inner, rfl, ht, hinner⟩ := List.map_eq_cons_iff.1 hfront
    refine readSigned_reads.2 ?_
    rw [ht]
    exact ⟨_, ih hinner, rfl⟩
  | number value =>
    intro front rest hfront
    obtain ⟨t, rfl, ht⟩ := List.map_eq_singleton_iff.1 hfront
    refine readSigned_reads.2 ?_
    rw [ht]
    exact ⟨rfl, rfl⟩
  | @parentheses ts e _ ih =>
    intro front rest hfront
    obtain ⟨t, inner, u, rfl, ht, hinner, hu⟩ := map_token_eq_parenthesized hfront
    have hsum : Reads (readSum (inner ++ u :: rest)) e (u :: rest) :=
      ih.sum_before hinner (by rw [hu]; rfl) (by rw [hu]; rfl)
    have hassoc : t :: (inner ++ [u]) ++ rest = t :: (inner ++ u :: rest) := by simp
    rw [hassoc]
    refine readSigned_reads.2 ?_
    rw [ht]
    exact ⟨u, hsum, hu⟩
  | choice hif hthen helse test _ _ _ _ iha ihb ihc ihd =>
    exact choice_complete hif hthen helse test iha ihb ihc ihd
  | call hname pieces htakes _ ih => exact call_complete hname pieces htakes ih

/-! ### Whole formulas -/

theorem parse_eq_ok : parse ts = .ok e ↔ Reads (readSum ts) e [] := by
  rw [parse]
  split
  · rename_i hts
    obtain rfl := List.isEmpty_iff.1 hts
    constructor
    · intro h
      cases h
    · intro h
      exact absurd h.shorter (Nat.not_lt_zero _)
  · rw [bind_eq_ok]
    constructor
    · rintro ⟨⟨a, rest, hrest⟩, hread, h⟩
      cases rest with
      | nil =>
        cases h
        exact ⟨hrest, hread⟩
      | cons t us => cases h
    · rintro ⟨hrest, hread⟩
      exact ⟨_, hread, rfl⟩

theorem parse_eq_ok_iff_derives :
    parse ts = .ok e ↔ Derives .sum (ts.map Located.token) e := by
  rw [parse_eq_ok]
  constructor
  · intro h
    obtain ⟨front, rfl, hderives⟩ := (soundBelow (ts.length + 1)).sum ts (Nat.lt_succ_self _) h
    rwa [List.append_nil]
  · intro h
    have hnone : ∀ op? : Token → Option BinaryOp, NoOp op? [] := by
      intro op? t ht
      cases ht
    have hall := complete h rfl (hnone _) (.done (hnone _))
    rwa [List.append_nil] at hall

/-- The tokens of a formula stand for one tree at most, and the parser tells which. -/
theorem parse_decides_grammar (ts : List Located) :
    (∀ e, parse ts = .ok e ↔ Derives .sum (ts.map Located.token) e) ∧
      {e | Derives .sum (ts.map Located.token) e}.Subsingleton ∧
      ((∃ err, parse ts = .error err) ↔ ∀ e, ¬ Derives .sum (ts.map Located.token) e) := by
  refine ⟨fun e => parse_eq_ok_iff_derives, ?_, ?_⟩
  · intro e he e' he'
    have h := parse_eq_ok_iff_derives.2 he
    rw [parse_eq_ok_iff_derives.2 he'] at h
    cases h
    rfl
  · constructor
    · rintro ⟨err, herr⟩ e he
      rw [parse_eq_ok_iff_derives.2 he] at herr
      cases herr
    · intro hnone
      cases h : parse ts with
      | error err => exact ⟨err, rfl⟩
      | ok e => exact absurd (parse_eq_ok_iff_derives.1 h) (hnone e)

end Casework.Formula
