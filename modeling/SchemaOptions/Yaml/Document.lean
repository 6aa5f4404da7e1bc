import SchemaOptions.Yaml.Lexer
import SchemaOptions.Yaml.Node

/-!
# From tokens to a document

The grammar of the tokens. A node is an alias, or anchor and tag in either order and then a scalar,
a mapping or nothing; nothing at all is a node only where the grammar says so. A text holds one
document at most. No call reads the same tokens more than four deep, and that gives the fuel.
-/

namespace SchemaOptions.Yaml

/-- What has been read in a document besides its nodes: the beginnings that handles of tags stand
for, and the names of anchors with their numbers. -/
structure Scope where
  handles : List (List Char × Tag)
  anchors : List (List Char × Nat) := []

namespace Scope

/-- The handles that need no directive. -/
def standardHandles : List (List Char × Tag) :=
  [(['!'], Tag.bare), (['!', '!'], Tag.core)]

/-- A tag written out; nothing if its handle stands for nothing. -/
def expand? (scope : Scope) (name : TagName) : Option Tag :=
  if name.handle.isEmpty then some name.suffix
  else (scope.handles.lookup name.handle).map (· ++ name.suffix)

/-- Gives a name of an anchor its number. -/
def addAnchor (scope : Scope) (name : List Char) : Nat × Scope :=
  let number := scope.anchors.length
  (number, { scope with anchors := (name, number) :: scope.anchors.filter (·.1 != name) })

end Scope

/-- Anchor and tag of a node. -/
structure Properties where
  anchor? : Option Nat := none
  tag? : Option Tag := none

/-- Whether a node has an anchor or a tag. -/
def Properties.any (properties : Properties) : Bool :=
  properties.anchor?.isSome || properties.tag?.isSome

namespace Reading

/-- Reads an anchor, if one stands here. -/
def anchor (properties : Properties) (scope : Scope) (tokens : List Token) :
    Properties × Scope × List Token :=
  match tokens with
  | .anchor name :: rest =>
    let (number, scope) := scope.addAnchor name
    ({ properties with anchor? := some number }, scope, rest)
  | _ => (properties, scope, tokens)

/-- Reads a tag, if one stands here. -/
def tag? (properties : Properties) (scope : Scope) (tokens : List Token) :
    Option (Properties × List Token) :=
  match tokens with
  | .tag name :: rest =>
    (scope.expand? name).map fun tag => ({ properties with tag? := some tag }, rest)
  | _ => some (properties, tokens)

/-- Reads anchor and tag in either order, each once at most. -/
def properties? (scope : Scope) (tokens : List Token) : Option (Properties × Scope × List Token) :=
  match tokens with
  | .anchor _ :: _ =>
    let (properties, scope, rest) := anchor {} scope tokens
    (tag? properties scope rest).map fun (properties, rest) => (properties, scope, rest)
  | _ => (tag? {} scope tokens).map fun (properties, rest) => anchor properties scope rest

/-- Whether a block entry has nothing more to say before these tokens. -/
def endsBlockPart : List Token → Bool
  | .key :: _ | .value :: _ | .blockEnd :: _ => true
  | _ => false

/-- Whether a flow entry has nothing more to say before these tokens. -/
def endsFlowPart : List Token → Bool
  | .flowEntry :: _ | .flowMappingEnd :: _ => true
  | _ => false

/-- Whether a flow entry has no key before these tokens. -/
def endsFlowKey (tokens : List Token) : Bool :=
  endsFlowPart tokens || tokens.head? == some .value

/-- A node, what has been read by then, and the tokens behind it. -/
abbrev Result (α : Type) := Option (α × Scope × List Token)

mutual

/-- Reads a node. Block mappings are read only outside of flow collections. -/
def node (fuel : Nat) (inFlow : Bool) (scope : Scope) (tokens : List Token) : Result Node :=
  match fuel with
  | 0 => none
  | fuel + 1 =>
    match tokens with
    | .alias name :: rest =>
      (scope.anchors.lookup name).map fun number => (.alias number, scope, rest)
    | _ =>
      match properties? scope tokens with
      | none => none
      | some (properties, scope, tokens) =>
        match tokens with
        | .scalar style text :: rest =>
          some (.scalar properties.anchor? properties.tag? style text, scope, rest)
        | .flowMappingStart :: rest =>
          (flowEntries fuel true scope rest).map fun (entries, after) =>
            (.mapping properties.anchor? entries, after)
        | .blockMappingStart :: rest =>
          if inFlow then none
          else
            (blockEntries fuel scope rest).map fun (entries, after) =>
              (.mapping properties.anchor? entries, after)
        | _ =>
          if properties.any then
            some (.scalar properties.anchor? properties.tag? .plain [], scope, tokens)
          else
            none

/-- Reads the entries of a block mapping, up to its end. -/
def blockEntries (fuel : Nat) (scope : Scope) (tokens : List Token) : Result (List (Node × Node)) :=
  match fuel with
  | 0 => none
  | fuel + 1 =>
    match tokens with
    | .blockEnd :: rest => some ([], scope, rest)
    | .key :: rest =>
      match
        if endsBlockPart rest then some (Node.empty, scope, rest) else node fuel false scope rest
      with
      | none => none
      | some (key, scope, rest) =>
        match blockValue fuel scope rest with
        | none => none
        | some (value, scope, rest) =>
          (blockEntries fuel scope rest).map fun (entries, after) =>
            ((key, value) :: entries, after)
    | _ => none

/-- Reads the value of a block entry, if there is one. -/
def blockValue (fuel : Nat) (scope : Scope) (tokens : List Token) : Result Node :=
  match fuel with
  | 0 => none
  | fuel + 1 =>
    match tokens with
    | .value :: rest =>
      if endsBlockPart rest then some (Node.empty, scope, rest) else node fuel false scope rest
    | _ => some (Node.empty, scope, tokens)

/-- Reads the entries of a flow mapping, up to its end. Before each but the first stands a mark,
which may also stand behind the last. -/
def flowEntries (fuel : Nat) (first : Bool) (scope : Scope) (tokens : List Token) :
    Result (List (Node × Node)) :=
  match fuel with
  | 0 => none
  | fuel + 1 =>
    match tokens with
    | .flowMappingEnd :: rest => some ([], scope, rest)
    | .flowEntry :: rest =>
      if first then none
      else
        match rest with
        | .flowMappingEnd :: rest => some ([], scope, rest)
        | _ => flowEntry fuel scope rest
    | _ => if first then flowEntry fuel scope tokens else none

/-- Reads an entry of a flow mapping and those behind it. -/
def flowEntry (fuel : Nat) (scope : Scope) (tokens : List Token) : Result (List (Node × Node)) :=
  match fuel with
  | 0 => none
  | fuel + 1 =>
    match tokens with
    | .key :: rest =>
      match
        if endsFlowKey rest then some (Node.empty, scope, rest) else node fuel true scope rest
      with
      | none => none
      | some (key, scope, rest) =>
        match flowValue fuel scope rest with
        | none => none
        | some (value, scope, rest) =>
          (flowEntries fuel false scope rest).map fun (entries, after) =>
            ((key, value) :: entries, after)
    | _ =>
      match node fuel true scope tokens with
      | none => none
      | some (key, scope, rest) =>
        (flowEntries fuel false scope rest).map fun (entries, after) =>
          ((key, Node.empty) :: entries, after)

/-- Reads the value of a flow entry, if there is one. -/
def flowValue (fuel : Nat) (scope : Scope) (tokens : List Token) : Result Node :=
  match fuel with
  | 0 => none
  | fuel + 1 =>
    match tokens with
    | .value :: rest =>
      if endsFlowPart rest then some (Node.empty, scope, rest) else node fuel true scope rest
    | _ => some (Node.empty, scope, tokens)

end

/-! ## Documents -/

/-- Whether a version of the language is known. -/
def isKnownVersion (major minor : Nat) : Bool :=
  major == 1 && (minor == 1 || minor == 2)

/-- Reads directives: a version once at most, and handles of tags, each once at most. -/
def directives (hasVersion : Bool) (handles : List (List Char × Tag)) :
    List Token → Option (List (List Char × Tag) × List Token)
  | .versionDirective major minor :: rest =>
    if hasVersion || !isKnownVersion major minor then none else directives true handles rest
  | .tagDirective handle beginning :: rest =>
    if (handles.lookup handle).isSome then none
    else directives hasVersion (handles ++ [(handle, beginning)]) rest
  | tokens => some (handles, tokens)

/-- Whether a document has no node of its own before these tokens. -/
def endsDocument : List Token → Bool
  | [] => true
  | .versionDirective _ _ :: _ => true
  | .tagDirective _ _ :: _ => true
  | .documentStart :: _ => true
  | .documentEnd :: _ => true
  | _ => false

/-- Reads the node of a document, and nothing behind it but marks of its end. -/
def root (scope : Scope) (tokens : List Token) : Option Node :=
  match node (4 * (tokens.length + 1)) false scope tokens with
  | none => none
  | some (root, _, rest) => if rest.all (· == .documentEnd) then some root else none

/-- Reads a text: its one document, or none. -/
def document (tokens : List Token) : Option (Option Node) :=
  match tokens with
  | [] => some none
  | _ =>
    match directives false [] tokens with
    | none => none
    | some (handles, .documentStart :: rest) =>
      if endsDocument rest then
        if rest.all (· == .documentEnd) then some (some .empty) else none
      else
        (root ⟨handles ++ Scope.standardHandles, []⟩ rest).map some
    | some (_, rest) =>
      if rest.length == tokens.length then
        (root ⟨Scope.standardHandles, []⟩ rest).map some
      else
        none

end Reading

/-- The document that bytes spell, or none if they hold nothing but comments; nothing at all if they
are no text of the language. -/
def Node.ofBytes? (bytes : List UInt8) : Option (Option Node) := do
  let cursor ← Cursor.ofBytes? bytes
  let tokens ← Token.ofText? cursor
  Reading.document tokens

end SchemaOptions.Yaml
