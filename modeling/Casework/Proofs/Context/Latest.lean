import Mathlib.Data.List.Induction
import Casework.Proofs.Context.RoundTrip
import Casework.Proofs.Dictionary
import Casework.Proofs.Engine.Alike

/-!
# What the latest completion says

The latest completion of all is the last entry of a context, and what it writes to the inputs of an
evaluation is written last: over the facts of the case, over all other entries, and over whatever the
step had come to before.
-/

namespace Casework

namespace Context

variable {c : Context} {name output : String} {entries : List (String × String)}

/-- The context without the entry of the name. -/
def without (c : Context) (name : String) : Context := ⟨c.entries.filter (·.1 != name)⟩

theorem entries_insert (c : Context) (name output : String) :
    (c.insert name output).entries = (c.without name).entries ++ [(name, output)] := rfl

theorem ofList_concat (entries : List (String × String)) (name output : String) :
    ofList (entries ++ [(name, output)]) = (ofList entries).insert name output := by
  rw [ofList, List.foldl_append]
  rfl

theorem without_insert_self (c : Context) (name output : String) :
    (c.insert name output).without name = c.without name := by
  simp [without, insert, List.filter_append]

theorem without_insert_of_ne {other : String} (h : other ≠ name) (c : Context) (output : String) :
    (c.insert other output).without name = (c.without name).insert other output := by
  simp [without, insert, List.filter_append, h, List.filter_filter, Bool.and_comm]

theorem insert_without (c : Context) (name output : String) :
    (c.without name).insert name output = c.insert name output := by
  simp [without, insert, List.filter_filter]

theorem without_ofList (entries : List (String × String)) (name : String) :
    (ofList entries).without name = ofList (entries.filter (·.1 != name)) := by
  induction entries using List.reverseRecOn with
  | nil => rfl
  | append_singleton entries e ih =>
    obtain ⟨other, output⟩ := e
    rw [ofList_concat, List.filter_append]
    by_cases h : other = name
    · subst h
      rw [without_insert_self, ih]
      simp
    · rw [without_insert_of_ne h, ih, ← ofList_concat]
      simp [h]

/-- Each name stands in a context once. -/
theorem names_nodup (entries : List (String × String)) :
    ((ofList entries).entries.map Prod.fst).Nodup := by
  induction entries using List.reverseRecOn with
  | nil => exact .nil
  | append_singleton entries e ih =>
    rw [ofList_concat, entries_insert, List.map_append]
    refine List.nodup_append.2 ⟨ih.sublist (List.filter_sublist.map _), by simp, ?_⟩
    intro a ha b hb
    obtain ⟨d, hd, rfl⟩ := List.mem_map.1 ha
    obtain rfl : b = e.1 := by simpa using hb
    simpa using (List.mem_filter.1 hd).2

theorem entries_ofList (h : (entries.map Prod.fst).Nodup) : (ofList entries).entries = entries := by
  induction entries using List.reverseRecOn with
  | nil => rfl
  | append_singleton entries e ih =>
    rw [List.map_append, List.nodup_append] at h
    obtain ⟨hentries, -, hnew⟩ := h
    rw [ofList_concat, entries_insert, without, ih hentries, List.filter_eq_self.2]
    intro d hd
    simpa using hnew d.1 (List.mem_map_of_mem hd) e.1 (by simp)

/-- A context is read back from its text as it is. -/
theorem ofText?_render_ofList (entries : List (String × String)) :
    ofText? (ofList entries).render = some (ofList entries) := by
  rw [ofText?_render]
  exact congrArg (fun entries => some (Context.mk entries)) (entries_ofList (names_nodup entries))

/-! ### The context of executions -/

/-- What executions give to a context if they have been completed in their order. -/
def latest (es : List Execution) : List (String × String) :=
  (es.filter (·.status == .completed)).filterMap fun e => e.output.map (e.stepName, ·)

theorem outputs_of_ordered {es : List Execution}
    (h : Chronological (es.filter (·.status == .completed))) : outputs es = latest es := by
  rw [outputs, List.mergeSort_of_pairwise h, latest]

theorem latest_append (es es' : List Execution) : latest (es ++ es') = latest es ++ latest es' := by
  simp [latest]

theorem latest_of_none_completed {es : List Execution} (h : ∀ z ∈ es, z.status ≠ .completed) :
    latest es = [] := by
  rw [latest, List.filter_eq_nil_iff.2, List.filterMap_nil]
  intro z hz
  simpa using h z hz

/-- The executions of other steps. -/
def others (name : String) (es : List Execution) : List Execution :=
  es.filter (·.stepName != name)

theorem latest_others (es : List Execution) (name : String) :
    latest (others name es) = (latest es).filter (·.1 != name) := by
  rw [latest, latest, others, List.filter_comm, List.filterMap_filter, List.filter_filterMap]
  congr 1
  funext z
  by_cases hz : z.stepName = name
  · cases z.output <;> simp [Option.filter, hz]
  · cases z.output <;> simp [Option.filter, hz]

/-- What was completed last is the last entry, and the others are those of the other steps. -/
theorem ofExecutions_of_latest {before between : List Execution} {x : Execution} {output : String}
    (hx : x.status = .completed) (houtput : x.output = some output)
    (hbetween : ∀ z ∈ between, z.status ≠ .completed)
    (hordered : Chronological ((before ++ x :: between).filter (·.status == .completed))) :
    ofExecutions (before ++ x :: between) =
      (ofExecutions (others x.stepName (before ++ x :: between))).insert x.stepName output := by
  have hothers : Chronological
      ((others x.stepName (before ++ x :: between)).filter (·.status == .completed)) :=
    hordered.sublist (List.filter_sublist.filter _)
  have hlast : latest [x] = [(x.stepName, output)] := by
    simp [latest, hx, houtput]
  have hlatest : latest (before ++ x :: between) = latest before ++ [(x.stepName, output)] := by
    rw [← List.singleton_append, latest_append, latest_append, hlast,
      latest_of_none_completed hbetween, List.append_nil]
  rw [ofExecutions, ofExecutions, outputs_of_ordered hordered, outputs_of_ordered hothers,
    latest_others, ← without_ofList, insert_without, hlatest, ofList_concat,
    ← insert_without ((ofList _).insert _ _), without_insert_self, insert_without]

theorem without_ofExecutions_others (name : String) {es : List Execution}
    (hordered : Chronological (es.filter (·.status == .completed))) :
    (ofExecutions (others name es)).without name = ofExecutions (others name es) := by
  have hothers : Chronological ((others name es).filter (·.status == .completed)) :=
    hordered.sublist (List.filter_sublist.filter _)
  rw [ofExecutions, outputs_of_ordered hothers, latest_others, without_ofList, List.filter_filter]
  simp only [Bool.and_self]

end Context

namespace Inputs

variable {data : Dictionary String} {c : Context} {name output key value : String}
  {behind : List (String × String)}

/-- An execution that has been shown the context of others works on just that context. -/
theorem ofExecution?_of_shown (es : List Execution) {e : Execution}
    (h : e.input = some (Context.ofExecutions es).render) (data : Dictionary String) :
    ofExecution? e data = some (build data (.ofExecutions es)) := by
  rw [ofExecution?, h]
  simp only [Context.ofExecutions, Context.ofText?_render_ofList, Option.map_some]

theorem writes_insert (data : Dictionary String) (c : Context) (name output : String) :
    writes data (c.insert name output) = writes data (c.without name) ++ entryWrites name output := by
  rw [writes, writes, Context.entries_insert, List.flatMap_append, List.flatMap_singleton,
    List.append_assoc]

/-- What the last entry writes last to a key is found there. -/
theorem get?_build_of_last (front : List (String × String))
    (h : entryWrites name output = front ++ (key, value) :: behind)
    (hbehind : ∀ e ∈ behind, e.1 ≠ key) :
    (build data (c.insert name output)).get? key = some value := by
  rw [build, get?, writes_insert, h, ← List.append_assoc]
  exact Dictionary.get?_ofList_of_last _ hbehind

/-- To where the last entry writes nothing, the others and the facts of the case have written what is
there. -/
theorem get?_build_of_unwritten (h : ∀ e ∈ entryWrites name output, e.1 ≠ key) :
    (build data (c.insert name output)).get? key = (build data (c.without name)).get? key := by
  rw [build, get?, writes_insert]
  exact Dictionary.get?_ofList_append h

/-! ### The output itself -/

mutual

/-- What a value writes goes to its path or below. -/
theorem length_le_of_mem_leaves (above : String) : (j : Json) → ∀ e ∈ leaves above j,
    above.length ≤ e.1.length
  | .text _ | .int _ | .real _ | .bool _ => by simp [leaves]
  | .null | .array _ => by simp [leaves]
  | .object members => fun e he =>
    Nat.le_of_lt (length_lt_of_mem_memberLeaves above members e (by rwa [leaves] at he))

theorem length_lt_of_mem_memberLeaves (above : String) : (members : List (String × Json)) →
    ∀ e ∈ memberLeaves above members, above.length < e.1.length
  | [] => by simp [memberLeaves]
  | (name, j) :: members => by
    intro e he
    rw [memberLeaves, List.mem_append] at he
    rcases he with he | he
    · have hbelow := length_le_of_mem_leaves (path above name) j e he
      have hdot : ".".length = 1 := rfl
      simp only [path, String.length_append] at hbelow
      omega
    · exact length_lt_of_mem_memberLeaves above members e he

end

/-- The output of the last entry is found by its name, whatever else the entry writes. -/
theorem get?_build_self (data : Dictionary String) (c : Context) (name output : String) :
    (build data (c.insert name output)).get? name = some output := by
  refine get?_build_of_last [] rfl fun e he => ?_
  split at he
  · rename_i members _
    have hbelow := length_lt_of_mem_memberLeaves name members e he
    rintro rfl
    exact Nat.lt_irrefl _ hbelow
  · cases he

/-- The keys with numbers are those at which a number is found. -/
theorem mem_decimals_iff {i : Inputs} {d : Decimal} :
    (key, d) ∈ i.decimals ↔ i.decimal? key = some d := by
  rw [decimals, decimal?, get?, List.mem_filterMap, Option.bind_eq_some_iff]
  constructor
  · rintro ⟨⟨key', text⟩, hmem, hread⟩
    obtain ⟨d', hd, heq⟩ := Option.map_eq_some_iff.1 hread
    obtain ⟨rfl, rfl⟩ := Prod.mk.inj heq
    exact ⟨text, Dictionary.get?_eq_some_iff.2 hmem, hd⟩
  · rintro ⟨text, hfound, hread⟩
    exact ⟨(key, text), Dictionary.get?_eq_some_iff.1 hfound, by simp [hread]⟩

end Inputs

end Casework
