import SchemaOptions.Yaml.Token

/-!
# Nodes

A document is a tree of scalars and mappings. A node may be marked with an anchor and stand again
wherever an alias names it.

An anchor is known by its number: how many different names of anchors stand before it. A name that
is given a second time takes a number of its own, which the next new name takes as well; of several
nodes with one number the last in the text counts. A document without repeated names cannot tell.
-/

namespace SchemaOptions.Yaml

/-- A node of a document. -/
inductive Node where
  /-- A scalar, with its anchor, its tag written out, and how it was written. -/
  | scalar (anchor? : Option Nat) (tag? : Option Tag) (style : ScalarStyle) (text : List Char)
  /-- A mapping, with its anchor. -/
  | mapping (anchor? : Option Nat) (entries : List (Node × Node))
  /-- The node with an anchor, once more. -/
  | alias (anchor : Nat)

namespace Node

/-- The scalar that stands where nothing is written. -/
def empty : Node := .scalar none none .plain []

mutual

/-- The last node in the text that has an anchor. -/
def anchored? (anchor : Nat) : Node → Option Node
  | .scalar own tag? style text =>
    if own = some anchor then some (.scalar own tag? style text) else none
  | .mapping own entries =>
    (anchoredIn? anchor entries).or
      (if own = some anchor then some (.mapping own entries) else none)
  | .alias _ => none

/-- The last node in some entries that has an anchor. -/
def anchoredIn? (anchor : Nat) : List (Node × Node) → Option Node
  | [] => none
  | (key, value) :: rest =>
    (anchoredIn? anchor rest).or ((value.anchored? anchor).or (key.anchored? anchor))

end

/-- The node that stands for a node of a document: itself, or what its alias names. -/
def resolve? (root : Node) : Node → Option Node
  | .alias anchor => root.anchored? anchor
  | node => some node

end Node

end SchemaOptions.Yaml
