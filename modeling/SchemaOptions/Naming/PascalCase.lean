import SchemaOptions.Text.Blank
import SchemaOptions.Text.UpperCase

/-!
# Pascal case

A name in Pascal case is its words in a row, each with its first character in upper case. Words end
at underscores, hyphens, full stops and white space; between two such separators there may be no
word at all, and then nothing is written. The first character is mapped by the full Unicode mapping,
so it may become several; the others stay as they are.
-/

namespace SchemaOptions.Naming

open SchemaOptions.Text

/-- Whether a character stands between words. -/
def isWordSeparator (c : Char) : Bool :=
  c == '_' || c == '-' || c == '.' || isBlank c

/-- A word with its first character in upper case. -/
def capitalized : List Char → List Char
  | [] => []
  | c :: cs => upper c ++ cs

/-- The Pascal case of a list of characters. -/
def pascalChars (cs : List Char) : List Char :=
  (cs.splitOnP isWordSeparator).flatMap capitalized

/-- The Pascal case of a name. -/
def pascalCase (name : String) : String :=
  String.ofList (pascalChars name.toList)

end SchemaOptions.Naming
