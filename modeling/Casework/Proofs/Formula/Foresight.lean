import Casework.Proofs.Formula.Loose
import Casework.Proofs.Formula.Scan

/-!
# A reader looks no further than it must

What a reader reads of a phrase, or finds wrong with it, is settled by the tokens up to the one it
looks at last: those behind it may be any. Up to the token that it finds wrong, or to the end if it
lacks one, the tokens are the front of a phrase. This is so of a reader of single tokens, and of one
reader behind another if it is so of both.
-/

namespace Casework.Formula

variable {α β : Type} {ts us rest : List Located}

/-! ### What can be told of a reader beforehand -/

/-- The tokens are the front of a phrase. -/
def Begun (phrase : α → List Token → Prop) (ts : List Token) : Prop :=
  ∃ a more, phrase a (ts ++ more)

/-- What a reader of phrases comes to, and that it does so whatever tokens stand behind those it has
looked at. -/
inductive Foretold (phrase : α → List Token → Prop) (p : Scan α) : List Located → Prop
  /-- Of the tokens that are left only the first has been looked at. -/
  | read {a : α} (front rest : List Located) (hphrase : phrase a (front.map Located.token))
    (h : ∀ rest', rest'.head? = rest.head? → p (front ++ rest') = .ok (a, rest')) :
    Foretold phrase p (front ++ rest)
  | wrong (expected : Expectation) {t : Located} (before after : List Located)
    (hbegun : Begun phrase (before.map Located.token))
    (h : ∀ after', p (before ++ t :: after') = .error (.unexpectedToken t expected)) :
    Foretold phrase p (before ++ t :: after)
  | ended (expected : Expectation) {ts : List Located}
    (hbegun : Begun phrase (ts.map Located.token))
    (h : p ts = .error (.unexpectedEnd expected)) : Foretold phrase p ts
  | miscounted {f : Function} {n : Nat} (before call after : List Located)
    (hcall : IsCall f n (call.map Located.token))
    (h : p (before ++ (call ++ after)) = .error (.argumentCount f n)) :
    Foretold phrase p (before ++ (call ++ after))

section

variable {P : α → List Token → Prop} {Q : α → β → List Token → Prop} {R : β → List Token → Prop}
  {p q : Scan α} {k : α → Scan β}

theorem head?_append_of_head? {us vs : List Located} (h : us.head? = vs.head?)
    (front : List Located) : (front ++ us).head? = (front ++ vs).head? := by
  cases front with
  | nil => exact h
  | cons t front => rfl

theorem head?_append_cons (before after after' : List Located) (t : Located) :
    (before ++ t :: after').head? = (before ++ t :: after).head? := by
  have hhead : (t :: after').head? = (t :: after).head? := rfl
  exact head?_append_of_head? hhead before

theorem Foretold.imp {P' : α → List Token → Prop} (h : Foretold P p ts)
    (hP : ∀ a w, P a w → P' a w) : Foretold P' p ts := by
  cases h with
  | read front rest hphrase h => exact .read front rest (hP _ _ hphrase) h
  | wrong expected before after hbegun h =>
    obtain ⟨a, more, hphrase⟩ := hbegun
    exact .wrong expected before after ⟨a, more, hP _ _ hphrase⟩ h
  | ended expected hbegun h =>
    obtain ⟨a, more, hphrase⟩ := hbegun
    exact .ended expected ⟨a, more, hP _ _ hphrase⟩ h
  | miscounted before call after hcall h => exact .miscounted before call after hcall h

/-- All that counts is what the reader does with this first token. -/
theorem Foretold.congr (h : Foretold P q ts) (hpq : ∀ us, us.head? = ts.head? → p us = q us) :
    Foretold P p ts := by
  cases h with
  | read front rest hphrase h =>
    refine .read front rest hphrase fun rest' hrest => ?_
    rw [hpq _ (head?_append_of_head? hrest front), h rest' hrest]
  | wrong expected before after hbegun h =>
    refine .wrong expected before after hbegun fun after' => ?_
    rw [hpq _ (head?_append_cons ..), h after']
  | ended expected hbegun h =>
    refine .ended expected hbegun ?_
    rw [hpq _ rfl, h]
  | miscounted before call after hcall h =>
    refine .miscounted before call after hcall ?_
    rw [hpq _ rfl, h]

/-- Behind a token that is taken. -/
theorem Foretold.cons {t : Located} (h : Foretold P q us) (hpq : ∀ us, p (t :: us) = q us)
    {P' : α → List Token → Prop} (hP : ∀ a w, P a w → P' a (t.token :: w)) :
    Foretold P' p (t :: us) := by
  cases h with
  | read front rest hphrase h =>
    refine .read (t :: front) rest (hP _ _ hphrase) fun rest' hrest => ?_
    rw [List.cons_append, hpq, h rest' hrest]
  | wrong expected before after hbegun h =>
    obtain ⟨a, more, hphrase⟩ := hbegun
    refine .wrong expected (t :: before) after ⟨a, more, hP _ _ hphrase⟩ fun after' => ?_
    rw [List.cons_append, hpq, h after']
  | ended expected hbegun h =>
    obtain ⟨a, more, hphrase⟩ := hbegun
    refine .ended expected ⟨a, more, hP _ _ hphrase⟩ ?_
    rw [hpq, h]
  | miscounted before call after hcall h =>
    refine .miscounted (t :: before) call after hcall ?_
    rw [List.cons_append, hpq, h]

/-- The second phrase behind the first. -/
def Then (P : α → List Token → Prop) (Q : α → β → List Token → Prop) (b : β) (ts : List Token) :
    Prop :=
  ∃ a u v, ts = u ++ v ∧ P a u ∧ Q a b v

/-- It is enough to look at what the second reader does when the first has read. -/
theorem Foretold.bind_of_read (hp : Foretold P p ts)
    (hread : ∀ a front rest, ts = front ++ rest → P a (front.map Located.token) →
      (∀ us, us.head? = rest.head? → (p >>= k) (front ++ us) = k a us) → Foretold R (p >>= k) ts)
    (hbegun : ∀ w, Begun P w → Begun R w) : Foretold R (p >>= k) ts := by
  have hbind (us : List Located) : (p >>= k) us = (p us >>= fun r => k r.1 r.2) := rfl
  cases hp with
  | read front rest hphrase h =>
    refine hread _ front rest rfl hphrase fun us hus => ?_
    rw [hbind, h us hus]
    rfl
  | wrong expected before after hphrase h =>
    refine .wrong expected before after (hbegun _ hphrase) fun after' => ?_
    rw [hbind, h after']
    rfl
  | ended expected hphrase h =>
    refine .ended expected (hbegun _ hphrase) ?_
    rw [hbind, h]
    rfl
  | miscounted before call after hcall h =>
    refine .miscounted before call after hcall ?_
    rw [hbind, h]
    rfl

theorem Foretold.bind (hp : Foretold P p ts)
    (hk : ∀ a front rest, ts = front ++ rest → Foretold (Q a) (k a) rest)
    (hpossible : ∀ a, ∃ b v, Q a b v) : Foretold (Then P Q) (p >>= k) ts := by
  refine hp.bind_of_read ?_ ?_
  · rintro a front rest rfl hphrase hstep
    have hbehind := hk a front rest rfl
    cases hbehind with
    | read middle rest hbehind h =>
      rw [← List.append_assoc]
      refine .read (front ++ middle) rest ⟨a, _, _, List.map_append, hphrase, hbehind⟩ ?_
      intro rest' hrest
      rw [List.append_assoc, hstep _ (head?_append_of_head? hrest middle), h rest' hrest]
    | wrong expected before after hbehind h =>
      obtain ⟨b, more, hbehind⟩ := hbehind
      rw [← List.append_assoc]
      refine .wrong expected (front ++ before) after ⟨b, more, a, _, _, ?_, hphrase, hbehind⟩ ?_
      · rw [List.map_append, List.append_assoc]
      · intro after'
        rw [List.append_assoc, hstep _ (head?_append_cons ..), h after']
    | ended expected hbehind h =>
      obtain ⟨b, more, hbehind⟩ := hbehind
      refine .ended expected ⟨b, more, a, _, _, ?_, hphrase, hbehind⟩ ?_
      · rw [List.map_append, List.append_assoc]
      · rw [hstep _ rfl, h]
    | miscounted before call after hcall h =>
      rw [← List.append_assoc]
      refine .miscounted (front ++ before) call after hcall ?_
      rw [List.append_assoc, hstep _ rfl, h]
  · rintro w ⟨a, more, hphrase⟩
    obtain ⟨b, v, hbehind⟩ := hpossible a
    exact ⟨b, more ++ v, a, w ++ more, v, (List.append_assoc ..).symm, hphrase, hbehind⟩

/-- All tokens that are fewer than `n` are foretold. -/
structure Foresees (n : Nat) (phrase : α → List Token → Prop) (p : Scan α) : Prop where
  possible : ∃ a w, phrase a w
  foretold : ∀ ts, ts.length < n → Foretold phrase p ts

namespace Foresees

variable {m n : Nat}

theorem zero (h : ∃ a w, P a w) : Foresees 0 P p :=
  ⟨h, fun _ hts => absurd hts (Nat.not_lt_zero _)⟩

theorem mono (h : Foresees n P p) (hm : m ≤ n) : Foresees m P p :=
  ⟨h.possible, fun ts hts => h.foretold ts (Nat.lt_of_lt_of_le hts hm)⟩

theorem imp {P' : α → List Token → Prop} (h : Foresees n P p) (hP : ∀ a w, P a w → P' a w) :
    Foresees n P' p := by
  obtain ⟨a, w, hphrase⟩ := h.possible
  exact ⟨⟨a, w, hP a w hphrase⟩, fun ts hts => (h.foretold ts hts).imp hP⟩

theorem bind (hp : Foresees n P p) (hk : ∀ a, Foresees n (Q a) (k a)) :
    Foresees n (Then P Q) (p >>= k) where
  possible := by
    obtain ⟨a, u, hu⟩ := hp.possible
    obtain ⟨b, v, hv⟩ := (hk a).possible
    exact ⟨b, u ++ v, a, u, v, rfl, hu, hv⟩
  foretold ts hts := by
    refine (hp.foretold ts hts).bind (fun a front rest hsplit => (hk a).foretold rest ?_)
      fun a => (hk a).possible
    have hle : rest.length ≤ ts.length := by
      rw [hsplit]
      exact length_le_append front
    exact Nat.lt_of_le_of_lt hle hts

theorem pure (a : α) : Foresees n (fun b w => b = a ∧ w = []) (Pure.pure a) :=
  ⟨⟨a, [], rfl, rfl⟩, fun ts _ => .read [] ts ⟨rfl, rfl⟩ fun _ _ => rfl⟩

end Foresees

end

/-! ### Single tokens -/

theorem readToken_foresees (n : Nat) {accept : Token → Option α} (expected : Expectation)
    (hpossible : ∃ t a, accept t = some a) :
    Foresees n (fun a w => ∃ t, w = [t] ∧ accept t = some a)
      (scan (readToken accept expected)) := by
  obtain ⟨t, a, ha⟩ := hpossible
  have hbegun : Begun (fun a w => ∃ t, w = [t] ∧ accept t = some a) [] := ⟨a, [t], t, rfl, ha⟩
  refine ⟨⟨a, [t], t, rfl, ha⟩, fun ts _ => ?_⟩
  cases ts with
  | nil => exact .ended expected hbegun rfl
  | cons u us =>
    cases hu : accept u.token with
    | none =>
      refine .wrong expected [] us hbegun fun after' => ?_
      rw [List.nil_append, scan, readToken, hu]
      rfl
    | some b =>
      refine .read [u] us ⟨u.token, rfl, hu⟩ fun rest' _ => ?_
      rw [List.singleton_append, scan, readToken, hu]
      rfl

theorem readSymbol_foresees (n : Nat) (s : Symbol) (expected : Expectation) :
    Foresees n (fun _ w => w = [.symbol s]) (scan (readSymbol s expected)) := by
  refine (readToken_foresees n expected ⟨.symbol s, (), if_pos rfl⟩).imp ?_
  rintro _ _ ⟨t, rfl, ht⟩
  split at ht
  · rename_i hs
    rw [hs]
  · cases ht

theorem readKeyword_foresees (n : Nat) (k : Keyword) :
    Foresees n (fun _ w => ∃ t, w = [t] ∧ k.Spells t) (scan (readKeyword k)) := by
  have hname : (Token.name k.text).keyword? = some k := by
    rw [Token.keyword?]
    cases k <;> decide
  refine (readToken_foresees n (.word k) ⟨.name k.text, (), if_pos hname⟩).imp ?_
  rintro _ _ ⟨t, rfl, ht⟩
  split at ht
  · rename_i hk
    exact ⟨t, rfl, Keyword.spells_iff.2 hk⟩
  · cases ht

end Casework.Formula
