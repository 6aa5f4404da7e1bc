import SchemaOptions.Yaml.Character

/-!
# Gaps between words

Between two words of a plain or quoted scalar there may be spaces, or line breaks with any
indentation around them. Spaces within a line count; a single line break counts as one space, and of
several the first is dropped and the others stay. A break that was escaped counts for nothing, and
the two separators of Unicode always count as they are.
-/

namespace SchemaOptions.Yaml

/-- What stands between two words. -/
inductive Gap where
  | empty
  /-- Spaces and tabs within a line. -/
  | spaces (cs : List Char)
  /-- Line breaks: the first, unless it was escaped, and those after it. -/
  | breaks (first : Option Char) (more : List Char)

namespace Gap

/-- Whether there is nothing between the words. -/
def isEmpty : Gap → Bool
  | .empty => true
  | _ => false

/-- Whether the words stand on different lines. -/
def isBroken : Gap → Bool
  | .breaks _ _ => true
  | _ => false

/-- The gap with a space or a tab behind it; behind a line break that is indentation. -/
def addSpace (c : Char) : Gap → Gap
  | .empty => .spaces [c]
  | .spaces cs => .spaces (cs ++ [c])
  | .breaks first more => .breaks first more

/-- The gap with a line break behind it; spaces before the first one are dropped. -/
def addBreak (c : Char) : Gap → Gap
  | .breaks first more => .breaks first (more ++ [c])
  | _ => .breaks (some c) []

/-- What the gap counts as. -/
def text : Gap → List Char
  | .empty => []
  | .spaces cs => cs
  | .breaks none more => more
  | .breaks (some first) more =>
    if first = '\n' then (if more.isEmpty then [' '] else more) else first :: more

end Gap

end SchemaOptions.Yaml
