import SchemaOptions.Json.Basic
import SchemaOptions.Json.Quoted

/-!
# The layout of JSON

Every item of a list and every member of an object stands on a line of its own, two columns further
in than what it belongs to. A list or an object without any content stays on its line.
-/

namespace SchemaOptions.JsonValue

/-- A new line at a depth. -/
def newLine (depth : Nat) : List Char :=
  '\n' :: List.replicate (2 * depth) ' '

/-- A truth value. -/
def flagText (b : Bool) : List Char :=
  if b then ['t', 'r', 'u', 'e'] else ['f', 'a', 'l', 's', 'e']

mutual

/-- A value whose first line is at a depth. -/
def layout (depth : Nat) : JsonValue → List Char
  | .text s => Json.quoted s
  | .flag b => flagText b
  | .list [] => ['[', ']']
  | .list (item :: rest) =>
    '[' :: newLine (depth + 1) ++ item.layout (depth + 1) ++ layoutItems (depth + 1) rest ++
      newLine depth ++ [']']
  | .object [] => ['\x7b', '\x7d']
  | .object ((key, value) :: rest) =>
    '\x7b' :: newLine (depth + 1) ++ Json.quoted key ++ [':', ' '] ++ value.layout (depth + 1) ++
      layoutMembers (depth + 1) rest ++ newLine depth ++ ['\x7d']

/-- The items behind the first, each with the comma before it. -/
def layoutItems (depth : Nat) : List JsonValue → List Char
  | [] => []
  | item :: rest => ',' :: newLine depth ++ item.layout depth ++ layoutItems depth rest

/-- The members behind the first, each with the comma before it. -/
def layoutMembers (depth : Nat) : List (String × JsonValue) → List Char
  | [] => []
  | (key, value) :: rest =>
    ',' :: newLine depth ++ Json.quoted key ++ [':', ' '] ++ value.layout depth ++
      layoutMembers depth rest

end

/-- The text of a value. -/
def render (value : JsonValue) : String :=
  String.ofList (value.layout 0)

end SchemaOptions.JsonValue
