/-!
# JSON values

The values that a summary consists of: texts, truth values, lists and objects. The members of an
object are listed in the order in which they are written.
-/

namespace SchemaOptions

/-- A value in JSON. -/
inductive JsonValue where
  | text (s : String)
  | flag (b : Bool)
  | list (items : List JsonValue)
  | object (members : List (String × JsonValue))

end SchemaOptions
