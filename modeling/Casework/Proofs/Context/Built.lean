import Casework.Proofs.Context.Latest

/-!
# Contexts are read back as they are

The text of a context is read back as the same context, entries and order included, exactly if no
name stands in it twice. That is so for whatever contexts there are: one entry after the other takes
the place of an earlier one of its name, whether a context is built or read.
-/

namespace Casework

namespace Context

variable {c : Context}

/-- Contexts come from executions or from nothing, and entries are put into them. -/
inductive Built : Context → Prop
  | empty : Built .empty
  | executions (es : List Execution) : Built (.ofExecutions es)
  | insert {c : Context} (h : Built c) (name output : String) : Built (c.insert name output)

theorem ofList_entries_iff :
    ofList c.entries = c ↔ (c.entries.map Prod.fst).Nodup := by
  constructor
  · intro h
    rw [← h]
    exact names_nodup c.entries
  · exact fun h => congrArg Context.mk (entries_ofList h)

theorem ofText?_render_eq_iff :
    ofText? c.render = some c ↔ (c.entries.map Prod.fst).Nodup := by
  rw [ofText?_render, Option.some_inj, ofList_entries_iff]

/-- To put an entry into a context comes to the same as to list it last. -/
theorem Built.exists_ofList (h : Built c) : ∃ entries, c = ofList entries := by
  induction h with
  | empty => exact ⟨[], rfl⟩
  | executions es => exact ⟨outputs es, rfl⟩
  | insert _ name output ih =>
    obtain ⟨entries, rfl⟩ := ih
    exact ⟨entries ++ [(name, output)], (ofList_concat entries name output).symm⟩

theorem exists_ofList_of_ofText? {text : String} (h : ofText? text = some c) :
    ∃ entries, c = ofList entries := by
  rw [ofText?] at h
  obtain ⟨d, -, h⟩ := Option.bind_eq_some_iff.1 h
  cases d with
  | table members =>
    obtain ⟨entries, -, hc⟩ := Option.bind_eq_some_iff.1 h
    exact ⟨entries, (Option.some.inj hc).symm⟩
  | _ => cases h

theorem names_nodup_of_exists (h : ∃ entries, c = ofList entries) :
    (c.entries.map Prod.fst).Nodup := by
  obtain ⟨entries, rfl⟩ := h
  exact names_nodup entries

/-- Whatever has been put into a context, its text stands for just this context. Whatever text a
context is read from, its names are distinct, and so it is read again from its own text. -/
theorem built_and_read_alike :
    (∀ {c : Context}, c.Built → ofText? c.render = some c) ∧
      ∀ {text : String} {c : Context}, ofText? text = some c →
        (c.entries.map Prod.fst).Nodup ∧ ofText? c.render = some c := by
  constructor
  · intro c h
    exact ofText?_render_eq_iff.2 (names_nodup_of_exists h.exists_ofList)
  · intro text c h
    have hnodup := names_nodup_of_exists (exists_ofList_of_ofText? h)
    exact ⟨hnodup, ofText?_render_eq_iff.2 hnodup⟩

/-- A name that is written again goes to the end, with its last value; quotes, backslashes, control
characters and what lies beyond 16 bits are kept. -/
theorem built_and_read_alike_again :
    (∃ c : Context, c.Built ∧ c.entries = [("b", "\x00😀"), ("a\"", "\\n")] ∧
      ofText? c.render = some c) ∧
    ∃ c : Context, ofText? "\x7b\"a\":\"1\",\"b\":\"2\",\"a\":\"3\"\x7d" = some c ∧
      c.entries = [("b", "2"), ("a", "3")] ∧ ofText? c.render = some c := by
  constructor
  · have hbuilt : (((Context.empty.insert "a\"" "1").insert "b" "\x00😀").insert "a\"" "\\n").Built :=
      .insert (.insert (.insert .empty _ _) _ _) _ _
    exact ⟨_, hbuilt, rfl, built_and_read_alike.1 hbuilt⟩
  · have hread := ofText?_render ⟨[("a", "1"), ("b", "2"), ("a", "3")]⟩
    have htext : (Context.mk [("a", "1"), ("b", "2"), ("a", "3")]).render =
        "\x7b\"a\":\"1\",\"b\":\"2\",\"a\":\"3\"\x7d" := by decide
    rw [htext] at hread
    exact ⟨_, hread, rfl, (built_and_read_alike.2 hread).2⟩

end Context

end Casework
