import SchemaOptions.Yaml.Tag

/-!
# Tokens of a YAML text

The marks, names and scalars that a text consists of, and besides them the marks that only the
indentation makes: where a block mapping starts, where a block ends, and where a key starts that is
known as such only by the colon behind it.

Lists have no tokens. A configuration has none, so a text with the mark of a list is refused by the
lexer.
-/

namespace SchemaOptions.Yaml

/-- How a scalar is written. -/
inductive ScalarStyle where
  | plain
  | singleQuoted
  | doubleQuoted
  | literal
  | folded
deriving DecidableEq

/-- A tag as it is written: a handle, which stands for a beginning, and the end. -/
structure TagName where
  handle : List Char
  suffix : Tag
deriving DecidableEq

inductive Token where
  | versionDirective (major minor : Nat)
  | tagDirective (handle : List Char) (beginning : Tag)
  | documentStart
  | documentEnd
  | blockMappingStart
  | blockEnd
  | flowMappingStart
  | flowMappingEnd
  | flowEntry
  | key
  | value
  | alias (name : List Char)
  | anchor (name : List Char)
  | tag (name : TagName)
  | scalar (style : ScalarStyle) (text : List Char)
deriving DecidableEq

end SchemaOptions.Yaml
