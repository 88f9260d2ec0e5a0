import Casework.Yaml.Layout

/-!
# From YAML tokens to nodes

A text holds one node at most. Anchors number the nodes that they stand before, and an alias has the
number that its name has where it stands. What is left out where a value belongs is an empty plain
scalar.
-/

namespace Casework.Yaml

/-- A scalar or a collection with its tag. -/
inductive Node where
  | scalar (text : String) (style : ScalarStyle) (tag : Option String)
  | list (items : List Node) (tag : Option String)
  | table (entries : List (Node × Node)) (tag : Option String)
  | alias (number : Nat)
  /-- A node with an anchor. -/
  | anchored (number : Nat) (node : Node)
deriving Repr

/-- What handles of tags stand for. -/
abbrev Handles := List (String × String)

/-- The names of anchors with their numbers, each name once. -/
abbrev Names := List (String × Nat)

/-- A name takes the number of names that there are, even if it is one of them and has a number. Its
new number may so become the number of the next name, too. -/
def Names.define (names : Names) (name : String) : Names :=
  (name, names.length) :: names.filter (·.1 ≠ name)

abbrev Composed := Node × Names

def standardHandles : Handles := [("!", "!"), ("!!", "tag:yaml.org,2002:")]

/-- The whole tag. A tag without a handle stands for itself. -/
def wholeTag? (handles : Handles) (handle suffix : String) : Option String :=
  if handle.isEmpty then some suffix else (handles.lookup handle).map (· ++ suffix)

def emptyScalar : Node := .scalar "" .plain none

/-- Where a node stands: block collections may begin, or entries without an indentation of their
own. -/
structure Position where
  block : Bool
  indentless : Bool

def Position.entry : Position := ⟨true, false⟩

def Position.pair : Position := ⟨true, true⟩

def Position.flow : Position := ⟨false, false⟩

def Position.admits (p : Position) : Token → Bool
  | .scalar .. | .flowSequenceStart | .flowMappingStart => true
  | .blockSequenceStart | .blockMappingStart => p.block
  | .blockEntry => p.indentless
  | _ => false

structure Properties where
  anchor : Option String
  tag : Option String

def Properties.begin (p : Properties) (names : Names) : Names :=
  p.anchor.elim names names.define

/-- The node with its anchor, given the names in front of it. -/
def Properties.finish (p : Properties) (names : Names) (node : Node) : Node :=
  match p.anchor with
  | some _ => .anchored names.length node
  | none => node

mutual

def node? (handles : Handles) (pos : Position) (names : Names) (ts : List Token) :
    Option (Read Composed ts) :=
  match ts with
  | .alias name :: rest =>
    (names.lookup name).map fun number => ⟨(.alias number, names), rest, length_lt_cons⟩
  | .anchor name :: .tag handle suffix :: rest | .tag handle suffix :: .anchor name :: rest =>
    (wholeTag? handles handle suffix).bind fun tag =>
      (behind? handles pos ⟨some name, some tag⟩ names rest).map
        (·.toRead (by simp only [List.length_cons]; omega))
  | .anchor name :: rest =>
    (behind? handles pos ⟨some name, none⟩ names rest).map (·.toRead length_lt_cons)
  | .tag handle suffix :: rest =>
    (wholeTag? handles handle suffix).bind fun tag =>
      (behind? handles pos ⟨none, some tag⟩ names rest).map (·.toRead length_lt_cons)
  | ts => content? handles pos ⟨none, none⟩ names ts
termination_by 4 * ts.length + 1
decreasing_by all_goals grind

/-- What follows a tag or an anchor. -/
def behind? (handles : Handles) (pos : Position) (p : Properties) (names : Names)
    (ts : List Token) : Option (ReadMany Composed ts) :=
  if ts.head?.any pos.admits then
    (content? handles pos p (p.begin names) ts).map fun r =>
      ⟨(p.finish names r.value.1, r.value.2), r.rest, Nat.le_of_lt r.shorter⟩
  else some (.nothing (p.finish names (.scalar "" .plain p.tag), p.begin names))
termination_by 4 * ts.length + 1
decreasing_by all_goals omega

def content? (handles : Handles) (pos : Position) (p : Properties) (names : Names)
    (ts : List Token) : Option (Read Composed ts) :=
  if !ts.head?.any pos.admits then none
  else match ts with
  | .scalar text style :: rest =>
    some ⟨(.scalar text style p.tag, names), rest, length_lt_cons⟩
  | .flowSequenceStart :: rest =>
    (flowItems? handles names rest).map fun r =>
      (r.map fun c => (Node.list c.1 p.tag, c.2)).after length_le_cons
  | .flowMappingStart :: rest =>
    (flowPairs? handles names rest).map fun r =>
      (r.map fun c => (Node.table c.1 p.tag, c.2)).after length_le_cons
  | .blockSequenceStart :: rest =>
    (blockItems? handles names rest).map fun r =>
      (r.map fun c => (Node.list c.1 p.tag, c.2)).after length_le_cons
  | .blockMappingStart :: rest =>
    (blockPairs? handles names rest).map fun r =>
      (r.map fun c => (Node.table c.1 p.tag, c.2)).after length_le_cons
  | .blockEntry :: rest =>
    (value? handles .entry [.blockEntry, .key, .value, .blockEnd] names rest).bind fun first =>
      have := first.notLonger
      (indentlessItems? handles first.value.2 first.rest).map fun r =>
        ⟨(.list (first.value.1 :: r.value.1) p.tag, r.value.2), r.rest, by
          have := r.notLonger
          simp only [List.length_cons]
          omega⟩
  | _ => none
termination_by 4 * ts.length
decreasing_by all_goals grind

/-- A node, or nothing before one of the given tokens. -/
def value? (handles : Handles) (pos : Position) (stops : List Token) (names : Names)
    (ts : List Token) : Option (ReadMany Composed ts) :=
  if ts.head?.any (· ∈ stops) then some (.nothing (emptyScalar, names))
  else (node? handles pos names ts).map fun r => ⟨r.value, r.rest, Nat.le_of_lt r.shorter⟩
termination_by 4 * ts.length + 2
decreasing_by all_goals omega

def blockItems? (handles : Handles) (names : Names) (ts : List Token) :
    Option (Read (List Node × Names) ts) :=
  match ts with
  | .blockEnd :: rest => some ⟨([], names), rest, length_lt_cons⟩
  | .blockEntry :: rest =>
    (value? handles .entry [.blockEntry, .blockEnd] names rest).bind fun first =>
      have := first.notLonger
      (blockItems? handles first.value.2 first.rest).map fun r =>
        ⟨(first.value.1 :: r.value.1, r.value.2), r.rest, by
          have := r.shorter
          simp only [List.length_cons]
          omega⟩
  | _ => none
termination_by 4 * ts.length + 2
decreasing_by all_goals grind

/-- Entries that end where something else begins. -/
def indentlessItems? (handles : Handles) (names : Names) (ts : List Token) :
    Option (ReadMany (List Node × Names) ts) :=
  match ts with
  | .blockEntry :: rest =>
    (value? handles .entry [.blockEntry, .key, .value, .blockEnd] names rest).bind fun first =>
      have := first.notLonger
      (indentlessItems? handles first.value.2 first.rest).map fun r =>
        ⟨(first.value.1 :: r.value.1, r.value.2), r.rest, by
          have := r.notLonger
          simp only [List.length_cons]
          omega⟩
  | ts => some (.nothing ([], names))
termination_by 4 * ts.length + 2
decreasing_by all_goals grind

/-- The value behind a colon, if there is a colon. -/
def colonValue? (handles : Handles) (pos : Position) (stops : List Token) (names : Names)
    (ts : List Token) : Option (ReadMany Composed ts) :=
  match ts with
  | .value :: rest => (value? handles pos stops names rest).map (·.after length_le_cons)
  | ts => some (.nothing (emptyScalar, names))
termination_by 4 * ts.length + 2
decreasing_by all_goals grind

def blockPairs? (handles : Handles) (names : Names) (ts : List Token) :
    Option (Read (List (Node × Node) × Names) ts) :=
  match ts with
  | .blockEnd :: rest => some ⟨([], names), rest, length_lt_cons⟩
  | .key :: rest =>
    (value? handles .pair [.key, .value, .blockEnd] names rest).bind fun k =>
      have := k.notLonger
      (colonValue? handles .pair [.key, .value, .blockEnd] k.value.2 k.rest).bind fun v =>
        have := v.notLonger
        (blockPairs? handles v.value.2 v.rest).map fun r =>
          ⟨((k.value.1, v.value.1) :: r.value.1, r.value.2), r.rest, by
            have := r.shorter
            simp only [List.length_cons]
            omega⟩
  | _ => none
termination_by 4 * ts.length + 2
decreasing_by all_goals grind

/-- The key of a pair in brackets. If there is none, the token in its place is passed over. -/
def bracketedKey? (handles : Handles) (names : Names) (ts : List Token) :
    Option (ReadMany Composed ts) :=
  if ts.head?.any (· ∈ [Token.value, .flowEntry, .flowSequenceEnd]) then
    some ⟨(emptyScalar, names), ts.drop 1, by simp only [List.length_drop]; omega⟩
  else (node? handles .flow names ts).map fun r => ⟨r.value, r.rest, Nat.le_of_lt r.shorter⟩
termination_by 4 * ts.length + 2
decreasing_by all_goals omega

/-- An item in brackets, which may be a single pair. -/
def flowItem? (handles : Handles) (names : Names) (ts : List Token) : Option (Read Composed ts) :=
  match ts with
  | .key :: rest =>
    (bracketedKey? handles names rest).bind fun k =>
      have := k.notLonger
      (colonValue? handles .flow [.flowEntry, .flowSequenceEnd] k.value.2 k.rest).map fun v =>
        ⟨(.table [(k.value.1, v.value.1)] none, v.value.2), v.rest, by
          have := v.notLonger
          simp only [List.length_cons]
          omega⟩
  | ts => node? handles .flow names ts
termination_by 4 * ts.length + 2
decreasing_by all_goals grind

/-- The items up to the closing bracket. -/
def flowItems? (handles : Handles) (names : Names) (ts : List Token) :
    Option (Read (List Node × Names) ts) :=
  match ts with
  | .flowSequenceEnd :: rest => some ⟨([], names), rest, length_lt_cons⟩
  | ts =>
    (flowItem? handles names ts).bind fun first =>
      have := first.shorter
      match h : first.rest with
      | .flowSequenceEnd :: rest => some ⟨([first.value.1], first.value.2), rest, by
          simp only [h, List.length_cons] at this
          omega⟩
      | .flowEntry :: rest =>
        have hrest : rest.length < ts.length := by
          simp only [h, List.length_cons] at this
          omega
        (flowItems? handles first.value.2 rest).map fun r =>
          (r.map fun c => (first.value.1 :: c.1, c.2)).after (Nat.le_of_lt hrest)
      | _ => none
termination_by 4 * ts.length + 3
decreasing_by all_goals omega

/-- A pair in braces, which may be a key alone. -/
def flowPair? (handles : Handles) (names : Names) (ts : List Token) :
    Option (Read ((Node × Node) × Names) ts) :=
  match ts with
  | .key :: rest =>
    (value? handles .flow [.value, .flowEntry, .flowMappingEnd] names rest).bind fun k =>
      have := k.notLonger
      (colonValue? handles .flow [.flowEntry, .flowMappingEnd] k.value.2 k.rest).map fun v =>
        ⟨((k.value.1, v.value.1), v.value.2), v.rest, by
          have := v.notLonger
          simp only [List.length_cons]
          omega⟩
  | ts => (node? handles .flow names ts).map fun r => r.map fun c => ((c.1, emptyScalar), c.2)
termination_by 4 * ts.length + 2
decreasing_by all_goals grind

/-- The pairs up to the closing brace. -/
def flowPairs? (handles : Handles) (names : Names) (ts : List Token) :
    Option (Read (List (Node × Node) × Names) ts) :=
  match ts with
  | .flowMappingEnd :: rest => some ⟨([], names), rest, length_lt_cons⟩
  | ts =>
    (flowPair? handles names ts).bind fun first =>
      have := first.shorter
      match h : first.rest with
      | .flowMappingEnd :: rest => some ⟨([first.value.1], first.value.2), rest, by
          simp only [h, List.length_cons] at this
          omega⟩
      | .flowEntry :: rest =>
        have hrest : rest.length < ts.length := by
          simp only [h, List.length_cons] at this
          omega
        (flowPairs? handles first.value.2 rest).map fun r =>
          (r.map fun c => (first.value.1 :: c.1, c.2)).after (Nat.le_of_lt hrest)
      | _ => none
termination_by 4 * ts.length + 3
decreasing_by all_goals omega

end

end Casework.Yaml
