/-!
# Identifiers

The names that every target language accepts: an ASCII letter or an underscore, then ASCII letters,
digits and underscores (`isIdentifier`), and such names joined by full stops
(`isDottedIdentifier`).
-/

namespace SchemaOptions.Naming

/-- Whether a character may open an identifier. -/
def isIdentifierStart (c : Char) : Bool :=
  c.isAlpha || c == '_'

/-- Whether a character may follow within an identifier. -/
def isIdentifierPart (c : Char) : Bool :=
  c.isAlphanum || c == '_'

/-- Whether the characters spell one identifier. -/
def isIdentifierWord : List Char → Bool
  | [] => false
  | c :: cs => isIdentifierStart c && cs.all isIdentifierPart

/-- Whether a text is one identifier. -/
def isIdentifier (s : String) : Bool :=
  isIdentifierWord s.toList

/-- Whether a text is one or more identifiers with a full stop between each two. -/
def isDottedIdentifier (s : String) : Bool :=
  (s.toList.splitOn '.').all isIdentifierWord

end SchemaOptions.Naming
