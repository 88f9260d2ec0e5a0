import Casework.Document.Shape
import Casework.Yaml.Node

/-!
# From YAML nodes to documents

An alias stands for the last node that has its number, wherever that node is, so a node may turn up
inside itself. Two bounds keep its document finite: collections are nested to a certain depth only,
and aliases are followed a certain number of times in all. Both are for what is looked at; the other
values of a table are left out.
-/

namespace Casework.Yaml

def maxDepth : Nat := 128

/-- How many times aliases may be followed for every event of the text. -/
def followsPerEvent : Nat := 100

namespace Node

mutual

/-- A scalar and an alias are one event, a collection has one at its start and one at its end. -/
def events : Node → Nat
  | .scalar .. | .alias _ => 1
  | .list items _ => eventsOfAll items + 2
  | .table entries _ => eventsOfEntries entries + 2
  | .anchored _ node => events node

def eventsOfAll : List Node → Nat
  | [] => 0
  | n :: ns => events n + eventsOfAll ns

def eventsOfEntries : List (Node × Node) → Nat
  | [] => 0
  | (k, v) :: es => events k + events v + eventsOfEntries es

end

mutual

/-- The nodes with anchors by their numbers, in the order in which they begin, before others. -/
def anchors (behind : List (Nat × Node)) : Node → List (Nat × Node)
  | .scalar .. | .alias _ => behind
  | .list items _ => anchorsOfAll behind items
  | .table entries _ => anchorsOfEntries behind entries
  | .anchored number node => (number, node) :: anchors behind node

def anchorsOfAll (behind : List (Nat × Node)) : List Node → List (Nat × Node)
  | [] => behind
  | n :: ns => anchors (anchorsOfAll behind ns) n

def anchorsOfEntries (behind : List (Nat × Node)) : List (Node × Node) → List (Nat × Node)
  | [] => behind
  | (k, v) :: es => anchors (anchors (anchorsOfEntries behind es) v) k

end

end Node

def scalarTag (tag : String) : ScalarTag :=
  if tag == "tag:yaml.org,2002:bool" then .bool
  else if tag == "tag:yaml.org,2002:int" then .int
  else if tag == "tag:yaml.org,2002:float" then .float
  else if tag == "tag:yaml.org,2002:null" then .null
  else .other

/-- The name that a tag of a document's own gives: it stands behind a mark. -/
def ownName? (tag : String) : Option String :=
  match tag.toList with
  | '!' :: name => some (String.ofList name)
  | _ => none

def untaggedScalar (text : String) : ScalarStyle → Document
  | .plain => .scalar text .plain none
  | _ => .text text

def scalar (text : String) (style : ScalarStyle) : Option String → Document
  | none => untaggedScalar text style
  | some tag =>
    match ownName? tag with
    | some name => .tagged name (untaggedScalar text style)
    | none => .scalar text style (some (scalarTag tag))

def collection (d : Document) (tag : Option String) : Document :=
  match tag.bind ownName? with
  | some name => .tagged name d
  | none => d

/-- The number is how many more times aliases may be followed. -/
abbrev Expansion := StateT Nat Option

/-- The node that an alias stands for, which is no alias; any other node stands for itself. -/
def follow (anchors : List (Nat × Node)) : Node → Expansion Node
  | .alias number => fun left =>
    if left = 0 then none else (anchors.lookup number).map (·, left - 1)
  | .anchored _ node => return node
  | node => return node

/-- The document of a node. The anchors are listed with the last one first. -/
def expand (anchors : List (Nat × Node)) : Nat → Shape → Node → Expansion Document
  | depth, shape, node => do
    match ← follow anchors node, depth with
    | .scalar text style tag, _ => return scalar text style tag
    | .list items tag, depth + 1 =>
      let item ← shape.item?
      return collection (.list (← items.mapM (expand anchors depth item))) tag
    | .table entries tag, depth + 1 =>
      let field ← shape.field?
      let entries ← entries.mapM fun e => do
        let key ← expand anchors depth .whole e.1
        match field key with
        | some shape => return (key, ← expand anchors depth shape e.2)
        | none => return (key, .null)
      return collection (.table entries) tag
    | _, _ => failure

def Node.document? (shape : Shape) (node : Node) : Option Document :=
  (expand (node.anchors []).reverse maxDepth shape node).run' (followsPerEvent * node.events)

end Casework.Yaml
