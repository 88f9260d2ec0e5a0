import Mathlib.Data.Int.ConditionallyCompleteOrder
import Mathlib.Data.Prod.Lex
import Mathlib.Order.ConditionallyCompleteLattice.Basic
import Mathlib.Order.WithBot
import Casework.Proofs.Context.Latest

/-!
# The entries of a context by rank

The executions that have been completed with an output offer it to the context. An offer ranks by
its time of completion, none first, and then by its place among the executions. For each step name
the highest offer is what the context has, and its entries stand in the order of the ranks. What
carries this is that the sort is stable, so that ranks ascend along the sorted executions, and that
of the entries of one name the last one stays.
-/

namespace Casework

/-! ### Stable sorts -/

section Sorting

variable {α : Type} {le : α → α → Bool} {l : List α}

/-- A stable sort leaves those that count as equal in the order in which they were. -/
theorem pairwise_ties_mergeSort (trans : ∀ a b c, le a b → le b c → le a c)
    (total : ∀ a b, le a b || le b a) {R : α → α → Prop} (h : l.Pairwise R) :
    (l.mergeSort le).Pairwise fun a b => le a b ∧ (le b a → R a b) := by
  refine (List.pairwise_mergeSort trans total l).and ?_
  induction h with
  | nil =>
    rw [List.mergeSort_nil]
    exact .nil
  | @cons a l ha _ ih =>
    obtain ⟨before, behind, hcons, hl, hbefore⟩ := List.mergeSort_cons trans total a l
    have hbehind : ∀ b ∈ behind, R a b := by
      intro b hb
      refine ha b ((List.mergeSort_perm l le).mem_iff.1 ?_)
      rw [hl]
      exact List.mem_append_right before hb
    rw [hl, List.pairwise_append] at ih
    obtain ⟨hfront, hback, hcross⟩ := ih
    rw [hcons, List.pairwise_append, List.pairwise_cons]
    refine ⟨hfront, ⟨fun b hb _ => hbehind b hb, hback⟩, fun b hb c hc => ?_⟩
    rcases List.mem_cons.1 hc with rfl | hc
    · intro hle
      have hnot := hbefore b hb
      rw [hle] at hnot
      cases hnot
    · exact hcross b hb c hc

theorem pairwise_zipIdx (l : List α) : l.zipIdx.Pairwise fun a b => a.2 < b.2 := by
  have h := List.pairwise_lt_range' (s := 0) (n := l.length)
  rw [← List.zipIdx_map_snd, List.pairwise_map] at h
  exact h

/-- To sort and then to leave some out is to sort the others. -/
theorem filter_mergeSort (trans : ∀ a b c, le a b → le b c → le a c)
    (total : ∀ a b, le a b || le b a) (p : α → Bool) :
    (l.mergeSort le).filter p = (l.filter p).mergeSort le := by
  -- With their places the values are in a strict order, in which a list has one arrangement only.
  let le' : α × Nat → α × Nat → Bool := fun a b => le a.1 b.1
  let p' : α × Nat → Bool := fun a => p a.1
  have hsort : ∀ zs : List (α × Nat),
      (zs.mergeSort le').map Prod.fst = (zs.map Prod.fst).mergeSort le :=
    fun zs => List.map_mergeSort fun a _ b _ => rfl
  have hfilter : ∀ zs : List (α × Nat),
      (zs.filter p').map Prod.fst = (zs.map Prod.fst).filter p :=
    fun zs => List.filter_map.symm
  have hties : ∀ zs : List (α × Nat), zs.Pairwise (fun a b => a.2 < b.2) →
      (zs.mergeSort le').Pairwise fun a b => le' a b ∧ (le' b a → a.2 < b.2) :=
    fun zs => pairwise_ties_mergeSort (fun a b c => trans a.1 b.1 c.1) fun a b => total a.1 b.1
  have hperm : ((l.zipIdx.mergeSort le').filter p').Perm ((l.zipIdx.filter p').mergeSort le') :=
    ((List.mergeSort_perm _ _).filter p').trans (List.mergeSort_perm _ _).symm
  have heq := hperm.eq_of_pairwise
    (fun a b _ _ hab hba => absurd (hab.2 hba.1) (Nat.lt_asymm (hba.2 hab.1)))
    ((hties _ (pairwise_zipIdx l)).filter p') (hties _ ((pairwise_zipIdx l).filter p'))
  have hmap := congrArg (List.map Prod.fst) heq
  rwa [hfilter, hsort, hsort, hfilter, List.zipIdx_map_fst] at hmap

end Sorting

/-! ### Offers -/

/-- The execution has been completed with an output. -/
def Execution.Contributes (e : Execution) : Prop := e.status = .completed ∧ e.output.isSome

instance : DecidablePred Execution.Contributes :=
  fun e => inferInstanceAs (Decidable (e.status = .completed ∧ e.output.isSome))

namespace Context

/-- An output with the time of its completion and the place of its execution. -/
structure Offer where
  completedAt : Option Time
  place : Nat
  stepName : String
  output : String
deriving DecidableEq, Repr

/-- A time of completion, none before all others. -/
def moment : Option Time → WithBot Int
  | none => ⊥
  | some t => t.nanoseconds

def Offer.rank (o : Offer) : WithBot Int ×ₗ Nat := toLex (moment o.completedAt, o.place)

def Offer.entry (o : Offer) : String × String := (o.stepName, o.output)

/-- The execution at the place of the offer makes it. -/
def Offered (es : List Execution) (o : Offer) : Prop :=
  ∃ e, es[o.place]? = some e ∧ e.status = .completed ∧ e.completedAt = o.completedAt ∧
    e.stepName = o.stepName ∧ e.output = some o.output

/-- No offer for the step ranks higher. -/
structure Highest (es : List Execution) (o : Offer) : Prop where
  offered : Offered es o
  highest : ∀ {o'}, Offered es o' → o'.stepName = o.stepName → o'.rank ≤ o.rank

variable {es : List Execution} {os : List Offer}

theorem moment_injective : Function.Injective moment := by
  rintro (_ | s) (_ | t) h
  · rfl
  · exact absurd h WithBot.bot_ne_coe
  · exact absurd h WithBot.coe_ne_bot
  · have hnanoseconds : s.nanoseconds = t.nanoseconds := WithBot.coe_injective h
    exact congrArg (fun n => some (Time.mk n)) hnanoseconds

theorem completedBefore_iff {e f : Execution} :
    completedBefore e f ↔ moment e.completedAt ≤ moment f.completedAt := by
  rw [completedBefore.eq_def]
  cases e.completedAt with
  | none => simp [moment]
  | some s =>
    cases f.completedAt with
    | none => simp [moment]
    | some t =>
      simp only [moment, WithBot.coe_le_coe, decide_eq_true_eq]
      exact Iff.rfl

theorem completedBefore_trans (a b c : Execution) (hab : completedBefore a b)
    (hbc : completedBefore b c) : completedBefore a c := by
  rw [completedBefore_iff] at *
  exact hab.trans hbc

theorem completedBefore_total (a b : Execution) : completedBefore a b || completedBefore b a := by
  rw [Bool.or_eq_true, completedBefore_iff, completedBefore_iff]
  exact le_total _ _

/-! ### Offers in the order of their ranks -/

def offer? (e : Execution) (place : Nat) : Option Offer :=
  e.output.map fun output => ⟨e.completedAt, place, e.stepName, output⟩

theorem offered_iff {o : Offer} :
    Offered es o ↔ ∃ p ∈ es.zipIdx, p.1.status = .completed ∧ offer? p.1 p.2 = some o := by
  constructor
  · rintro ⟨e, hplace, hstatus, htime, hname, houtput⟩
    refine ⟨(e, o.place), List.mem_zipIdx_iff_getElem?.2 hplace, hstatus, ?_⟩
    rw [offer?, houtput, htime, hname]
    rfl
  · rintro ⟨⟨e, place⟩, hmem, hstatus, hoffer⟩
    obtain ⟨output, houtput, rfl⟩ := Option.map_eq_some_iff.1 hoffer
    exact ⟨e, List.mem_zipIdx_iff_getElem?.1 hmem, hstatus, rfl, rfl, houtput⟩

/-- What a context is made of are all offers, in the order of their ranks. -/
theorem outputs_by_rank (es : List Execution) : ∃ os : List Offer,
    os.Pairwise (fun o o' => o.rank < o'.rank) ∧ (∀ o, o ∈ os ↔ Offered es o) ∧
      outputs es = os.map Offer.entry := by
  let le' : Execution × Nat → Execution × Nat → Bool := fun a b => completedBefore a.1 b.1
  let zs := es.zipIdx.filter fun p => p.1.status == .completed
  have hzs : zs.map Prod.fst = es.filter (·.status == .completed) := by
    rw [← List.zipIdx_map_fst 0 es, List.filter_map]
    rfl
  have hplaces : zs.Pairwise fun a b => a.2 < b.2 := (pairwise_zipIdx es).filter _
  have hsorted : (zs.mergeSort le').Pairwise fun a b => le' a b ∧ (le' b a → a.2 < b.2) :=
    pairwise_ties_mergeSort (fun a b c => completedBefore_trans a.1 b.1 c.1)
      (fun a b => completedBefore_total a.1 b.1) hplaces
  refine ⟨(zs.mergeSort le').filterMap fun p => offer? p.1 p.2, ?_, ?_, ?_⟩
  · refine List.Pairwise.filterMap _ ?_ hsorted
    rintro ⟨e, i⟩ ⟨f, j⟩ ⟨hle, hties⟩ o ho o' ho'
    obtain ⟨_, _, rfl⟩ := Option.map_eq_some_iff.1 ho
    obtain ⟨_, _, rfl⟩ := Option.map_eq_some_iff.1 ho'
    rw [Offer.rank, Offer.rank, Prod.Lex.toLex_lt_toLex]
    rcases (completedBefore_iff.1 hle).lt_or_eq with hlt | heq
    · exact .inl hlt
    · exact .inr ⟨heq, hties (completedBefore_iff.2 heq.ge)⟩
  · intro o
    rw [offered_iff]
    simp only [List.mem_filterMap, List.mem_mergeSort, zs, List.mem_filter, beq_iff_eq, and_assoc]
  · have hsort : (zs.mergeSort le').map Prod.fst = (zs.map Prod.fst).mergeSort completedBefore :=
      List.map_mergeSort fun a _ b _ => rfl
    rw [outputs, ← hzs, ← hsort, List.filterMap_map, List.map_filterMap]
    congr 1
    funext p
    cases h : p.1.output <;> simp [offer?, h, Offer.entry]

/-! ### The last entry of each name -/

/-- Of offers in the order of their ranks the highest of each name stays. -/
theorem entries_ofList_of_ranked (h : os.Pairwise fun o o' => o.rank < o'.rank) :
    ∃ last : List Offer, last.Sublist os ∧
      (ofList (os.map Offer.entry)).entries = last.map Offer.entry ∧
      ∀ o, o ∈ last ↔ o ∈ os ∧ ∀ o' ∈ os, o'.stepName = o.stepName → o'.rank ≤ o.rank := by
  induction os using List.reverseRecOn with
  | nil => exact ⟨[], .slnil, rfl, by simp⟩
  | append_singleton os p ih =>
    obtain ⟨hos, -, hbelow⟩ := List.pairwise_append.1 h
    obtain ⟨last, hsub, hentries, hlast⟩ := ih hos
    have hp : ∀ o ∈ os, o.rank < p.rank := fun o ho => hbelow o ho p List.mem_cons_self
    refine ⟨last.filter (fun o => o.stepName != p.stepName) ++ [p],
      (List.filter_sublist.trans hsub).append_right [p], ?_, fun o => ?_⟩
    · rw [List.map_append, List.map_singleton, Offer.entry, ofList_concat, entries_insert, without,
        hentries, List.filter_map, List.map_append]
      rfl
    · simp only [List.mem_append, List.mem_filter, List.mem_singleton, hlast, bne_iff_ne]
      constructor
      · rintro (⟨⟨ho, hhighest⟩, hname⟩ | rfl)
        · refine ⟨.inl ho, ?_⟩
          rintro o' (ho' | rfl) heq
          · exact hhighest o' ho' heq
          · exact absurd heq.symm hname
        · refine ⟨.inr rfl, ?_⟩
          rintro o' (ho' | rfl) -
          · exact (hp o' ho').le
          · exact le_refl _
      · rintro ⟨ho | rfl, hhighest⟩
        · refine .inl ⟨⟨ho, fun o' ho' => hhighest o' (.inl ho')⟩, fun heq => ?_⟩
          exact absurd (hhighest p (.inr rfl) heq.symm) (hp o ho).not_ge
        · exact .inr rfl

theorem mem_names_ofList {entries : List (String × String)} {name : String} :
    name ∈ (ofList entries).entries.map Prod.fst ↔ name ∈ entries.map Prod.fst := by
  induction entries using List.reverseRecOn with
  | nil => exact Iff.rfl
  | append_singleton entries e ih =>
    rw [ofList_concat, entries_insert, List.map_append, List.map_append, List.mem_append,
      List.mem_append, ← ih, without]
    simp only [List.mem_map, List.mem_filter, List.mem_singleton, bne_iff_ne]
    grind

/-! ### What does not matter -/

theorem outputs_eq (es : List Execution) :
    outputs es = ((es.filter (·.Contributes)).mergeSort completedBefore).filterMap
      fun e => e.output.map (e.stepName, ·) := by
  have hfilter : es.filter (·.Contributes) =
      (es.filter (·.status == .completed)).filter (·.output.isSome) := by
    rw [List.filter_filter]
    refine List.filter_congr fun e _ => ?_
    rw [Bool.eq_iff_iff, decide_eq_true_iff]
    simp [Execution.Contributes, and_comm]
  rw [outputs, hfilter, ← filter_mergeSort completedBefore_trans completedBefore_total
    (fun e => e.output.isSome), List.filterMap_filter]
  congr 1
  funext e
  cases h : e.output <;> simp

theorem ofExecutions_filter_contributes (es : List Execution) :
    ofExecutions (es.filter (·.Contributes)) = ofExecutions es := by
  rw [ofExecutions, ofExecutions, outputs_eq, outputs_eq es, List.filter_filter]
  simp only [Bool.and_self]

/-- Executions that have been completed at different times may stand in any order. -/
theorem ofExecutions_of_perm {es' : List Execution} (h : es'.Perm es)
    (htimes : ((es.filter (·.Contributes)).map (·.completedAt)).Nodup) :
    ofExecutions es' = ofExecutions es := by
  have hperm : (es'.filter (·.Contributes)).Perm (es.filter (·.Contributes)) := h.filter _
  have hsorted : (es'.filter (·.Contributes)).mergeSort completedBefore =
      (es.filter (·.Contributes)).mergeSort completedBefore := by
    refine List.Perm.eq_of_pairwise ?_
      (List.pairwise_mergeSort completedBefore_trans completedBefore_total _)
      (List.pairwise_mergeSort completedBefore_trans completedBefore_total _)
      ((List.mergeSort_perm _ _).trans (hperm.trans (List.mergeSort_perm _ _).symm))
    intro a b ha hb hab hba
    refine List.inj_on_of_nodup_map htimes ?_ (List.mem_mergeSort.1 hb) ?_
    · exact hperm.mem_iff.1 (List.mem_mergeSort.1 ha)
    · exact moment_injective ((completedBefore_iff.1 hab).antisymm (completedBefore_iff.1 hba))
  rw [ofExecutions, ofExecutions, outputs_eq, outputs_eq es, hsorted]

/-! ### The context of executions -/

/-- A context has one entry for each step name that there is an offer for. It is the highest offer
for the name, and the entries stand in the order of the ranks. So nothing but offers matters, and if
they have different times, nor does the order in which the executions are listed. -/
theorem entries_by_rank (es : List Execution) :
    (∃ os : List Offer, os.Pairwise (fun o o' => o.rank < o'.rank) ∧
      (∀ o, o ∈ os ↔ Highest es o) ∧ (ofExecutions es).entries = os.map Offer.entry) ∧
    ((ofExecutions es).entries.map Prod.fst).Nodup ∧
    (∀ name, name ∈ (ofExecutions es).entries.map Prod.fst ↔
      ∃ o, Offered es o ∧ o.stepName = name) ∧
    ofExecutions (es.filter (·.Contributes)) = ofExecutions es ∧
    ∀ es', es'.Perm es → ((es.filter (·.Contributes)).map (·.completedAt)).Nodup →
      ofExecutions es' = ofExecutions es := by
  obtain ⟨os, hranked, hoffered, houtputs⟩ := outputs_by_rank es
  obtain ⟨last, hsub, hentries, hlast⟩ := entries_ofList_of_ranked hranked
  refine ⟨⟨last, hranked.sublist hsub, fun o => ?_, ?_⟩, names_nodup _, fun name => ?_,
    ofExecutions_filter_contributes es, fun es' => ofExecutions_of_perm⟩
  · rw [hlast, hoffered]
    constructor
    · rintro ⟨ho, hhighest⟩
      exact ⟨ho, fun ho' => hhighest _ ((hoffered _).2 ho')⟩
    · rintro ⟨ho, hhighest⟩
      exact ⟨ho, fun o' ho' => hhighest ((hoffered o').1 ho')⟩
  · rw [ofExecutions, houtputs, hentries]
  · rw [ofExecutions, mem_names_ofList, houtputs, List.map_map, List.mem_map]
    simp only [hoffered]
    exact Iff.rfl

/-- A survey that was made twice, first between two estimates and then without a time, a draft that
failed, and a visit that left nothing behind. -/
def survey : List Execution :=
  [execution "survey" .completed (some "damp") (some 20),
    execution "draft" .failed (some "lost") (some 40),
    execution "estimate" .completed (some "900") (some 30),
    execution "visit" .completed none (some 30),
    execution "estimate" .completed (some "700") (some 10),
    execution "survey" .completed (some "dry") none]
where
  execution (name : String) (status : ExecutionStatus) (output : Option String)
      (second : Option Int) : Execution :=
    { id := ⟨0⟩, stepId := name, stepName := name, status, input := none, output, error := none
      startedAt := none, completedAt := second.map Time.ofSeconds }

/-- What was completed without a time gives way, and the visit may have the time of an estimate. -/
theorem entries_by_rank_survey :
    ((survey.filter (·.Contributes)).map (·.completedAt)).Nodup ∧
      ofExecutions survey.reverse = ofExecutions survey ∧
      (ofExecutions survey).entries = [("survey", "damp"), ("estimate", "900")] := by
  have htimes : ((survey.filter (·.Contributes)).map (·.completedAt)).Nodup := by decide
  obtain ⟨-, -, -, -, hperm⟩ := entries_by_rank survey
  refine ⟨htimes, hperm _ (List.reverse_perm survey) htimes, ?_⟩
  -- In the order of completion, in which there is nothing left to sort.
  let inOrder := [5, 4, 0, 1, 2, 3].filterMap (survey[·]?)
  have hinOrder : inOrder.Perm survey := by decide
  have hsorted : (inOrder.filter (·.status == .completed)).Pairwise
      fun x y => completedBefore x y := by decide
  rw [← hperm _ hinOrder htimes, ofExecutions, outputs, List.mergeSort_of_pairwise hsorted]
  rfl

end Context

end Casework
