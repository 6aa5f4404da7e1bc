import SchemaOptions.Text.Digits
import SchemaOptions.Yaml.Node

/-!
# What a node stands for

A node is read by what is expected of it. A text may be any scalar, whatever its style and tag. A
number or a truth value has to be plain, or a literal scalar whose tag says what it is. A thing that
may be absent is absent if nothing or a null is written for it.
-/

namespace SchemaOptions.Yaml

open SchemaOptions.Text

/-! ## Words -/

/-- Whether a word is a null. -/
def isNull (word : List Char) : Bool :=
  ["null", "Null", "NULL", "~"].contains (String.ofList word)

/-- The truth value that a word is. -/
def boolOf? (word : List Char) : Option Bool :=
  if ["true", "True", "TRUE"].contains (String.ofList word) then some true
  else if ["false", "False", "FALSE"].contains (String.ofList word) then some false
  else none

/-- Whether a word is a zero with more decimal digits behind it, which is no number. -/
def hasLeadingZero (cs : List Char) : Bool :=
  cs.head? == some '0' && 2 ≤ cs.length && cs.all Char.isDigit

/-- The number below a bound that a word without a sign is. -/
def unsignedOf? (bound : Nat) (cs : List Char) : Option Nat :=
  let number? :=
    match cs with
    | '0' :: 'x' :: digits => digitsOf? 16 digits
    | '0' :: 'o' :: digits => digitsOf? 8 digits
    | '0' :: 'b' :: digits => digitsOf? 2 digits
    | _ => if hasLeadingZero cs then none else digitsOf? 10 cs
  number?.filter (· < bound)

/-- A word without the sign of a positive number. -/
def withoutPlus : List Char → List Char
  | '+' :: cs => cs
  | cs => cs

/-- The number of at most 64 bits that a word is. -/
def uint64Of? (word : List Char) : Option UInt64 :=
  (unsignedOf? UInt64.size (withoutPlus word)).map UInt64.ofNat

/-! ## Nodes -/

namespace Node

/-- The text of a scalar. -/
def text? : Node → Option String
  | .scalar _ _ _ text => some (String.ofList text)
  | _ => none

/-- The word of a plain scalar, or of a literal one with a given tag. -/
def word? (tag : Tag) : Node → Option (List Char)
  | .scalar _ _ .plain text => some text
  | .scalar _ tag? .literal text => if tag? = some tag then some text else none
  | _ => none

/-- The truth value of a node. -/
def bool? (node : Node) : Option Bool :=
  (node.word? Tag.bool).bind boolOf?

/-- The number of a node. -/
def uint64? (node : Node) : Option UInt64 :=
  (node.word? Tag.int).bind uint64Of?

/-- The entries of a mapping. Where nothing is written there are none. -/
def entries? : Node → Option (List (Node × Node))
  | .mapping _ entries => some entries
  | .scalar _ _ .plain [] => some []
  | _ => none

/-- Whether a node says that something is absent; a tag of null on anything else is refused. -/
def isAbsent? : Node → Option Bool
  | .scalar _ none .plain text => some (text.isEmpty || isNull text)
  | .scalar _ (some tag) .plain text =>
    if tag = Tag.null then (if isNull text then some true else none) else some false
  | _ => some false

/-- What a node that may be absent stands for. -/
def optional? {α : Type} (read : Node → Option α) (node : Node) : Option (Option α) :=
  match node.isAbsent? with
  | none => none
  | some true => some none
  | some false => (read node).map some

/-- The name of a case: the name in a local tag, with nothing but a null behind it, or else the text
of a scalar. -/
def case? : Node → Option String
  | .scalar _ tag? style text =>
    match tag?.bind Tag.localName? with
    | some name => if style = .plain ∧ (text.isEmpty ∨ isNull text) then some name else none
    | none => some (String.ofList text)
  | _ => none

end Node

end SchemaOptions.Yaml
