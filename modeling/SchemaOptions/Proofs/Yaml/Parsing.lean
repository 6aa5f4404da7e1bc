import SchemaOptions.Proofs.Wire.Token
import SchemaOptions.Proofs.Yaml.Lexing

/-!
# A written document, there and back

The document that the written text spells is the one that was written (`ofBytes?_writeEntries`). It
has no anchors, no aliases and no tags, and each of its scalars is in the style in which it was
written.
-/

namespace SchemaOptions.Yaml

mutual

/-- The node that a content is. -/
def Content.node : Content → Node
  | .word s => .scalar none none .plain s.toList
  | .text s => .scalar none none (ScalarStyle.ofText s.toList) s.toList
  | .mapping entries => .mapping none (entriesNodes entries)

/-- The nodes that entries are. -/
def entriesNodes : List (String × Content) → List (Node × Node)
  | [] => []
  | (key, value) :: rest => ((Content.text key).node, value.node) :: entriesNodes rest

end

namespace Reading

/-- A scalar without properties is read as it is. -/
theorem node_scalar (fuel : Nat) (scope : Scope) (style : ScalarStyle) (text : List Char)
    (rest : List Token) :
    node (fuel + 1) false scope (.scalar style text :: rest) =
      some (.scalar none none style text, scope, rest) := by
  rw [node]
  · rfl
  · intro _ _ h
    cases h

/-- A block mapping without properties is read as its entries. -/
theorem node_mapping (fuel : Nat) (scope : Scope) (rest : List Token) :
    node (fuel + 1) false scope (.blockMappingStart :: rest) =
      (blockEntries fuel scope rest).map
        fun (entries, after) => (.mapping none entries, after) := by
  rw [node]
  · rfl
  · intro _ _ h
    cases h

/-- What is read of an entry with both key and value. -/
theorem blockEntries_entry {fuel : Nat} {scope : Scope} {style : ScalarStyle} {text : List Char}
    {tokens after rest : List Token} {value : Node} {entries : List (Node × Node)}
    (hends : endsBlockPart tokens = false)
    (hvalue : node fuel false scope tokens = some (value, scope, after))
    (hentries : blockEntries (fuel + 1) scope after = some (entries, scope, rest)) :
    blockEntries (fuel + 2) scope (.key :: .scalar style text :: .value :: tokens) =
      some ((.scalar none none style text, value) :: entries, scope, rest) := by
  have hkey := node_scalar fuel scope style text (.value :: tokens)
  have hblock : blockValue (fuel + 1) scope (.value :: tokens) = some (value, scope, after) := by
    rw [blockValue, hends]
    exact hvalue
  rw [blockEntries]
  simp only [endsBlockPart, Bool.false_eq_true, if_false, hkey, hblock, hentries]
  rfl

/-- The tokens of a content start a node. -/
theorem endsBlockPart_tokens (content : Content) (rest : List Token) :
    endsBlockPart (content.tokens ++ rest) = false := by
  cases content <;> rw [Content.tokens] <;> rfl

mutual

/-- The tokens of a content are read as its node. -/
theorem node_tokens (content : Content) (fuel : Nat) (scope : Scope) (rest : List Token)
    (hfuel : content.tokens.length ≤ fuel) :
    node fuel false scope (content.tokens ++ rest) = some (content.node, scope, rest) := by
  cases content with
  | word s =>
    obtain ⟨fuel, rfl⟩ := Nat.exists_eq_succ_of_ne_zero (Nat.ne_of_gt hfuel)
    rw [Content.tokens, Content.node]
    exact node_scalar fuel scope .plain s.toList rest
  | text s =>
    obtain ⟨fuel, rfl⟩ := Nat.exists_eq_succ_of_ne_zero (Nat.ne_of_gt hfuel)
    rw [Content.tokens, Content.node]
    exact node_scalar fuel scope (ScalarStyle.ofText s.toList) s.toList rest
  | mapping entries =>
    simp only [Content.tokens, List.length_cons, List.length_append, List.length_nil] at hfuel
    obtain ⟨fuel, rfl⟩ := Nat.exists_eq_succ_of_ne_zero (Nat.ne_of_gt (Nat.zero_lt_of_lt hfuel))
    have hentries := blockEntries_tokens entries fuel scope rest (Nat.le_of_succ_le_succ hfuel)
    rw [Content.tokens, Content.node, List.cons_append, List.append_assoc, node_mapping]
    exact congrArg (Option.map _) hentries

/-- The tokens of entries are read as their nodes, up to the end of the mapping. -/
theorem blockEntries_tokens (entries : List (String × Content)) (fuel : Nat) (scope : Scope)
    (rest : List Token) (hfuel : (entriesTokens entries).length < fuel) :
    blockEntries fuel scope (entriesTokens entries ++ .blockEnd :: rest) =
      some (entriesNodes entries, scope, rest) := by
  cases entries with
  | nil =>
    obtain ⟨fuel, rfl⟩ := Nat.exists_eq_succ_of_ne_zero (Nat.ne_of_gt hfuel)
    rw [entriesTokens, entriesNodes]
    exact blockEntries.eq_2 ..
  | cons entry others =>
    obtain ⟨key, value⟩ := entry
    simp only [entriesTokens, List.length_cons, List.length_append] at hfuel
    obtain ⟨fuel, rfl⟩ := Nat.exists_eq_add_of_le' (show 2 ≤ fuel by omega)
    have hvalue := node_tokens value fuel scope (entriesTokens others ++ .blockEnd :: rest)
      (by omega)
    have hothers := blockEntries_tokens others (fuel + 1) scope rest (by omega)
    rw [entriesTokens, entriesNodes, Content.node]
    simp only [List.cons_append, List.append_assoc]
    exact blockEntries_entry (endsBlockPart_tokens value _) hvalue hothers

end

/-- The tokens of a mapping are read as a document. -/
theorem document_tokens (entries : List (String × Content)) :
    document (Content.mapping entries).tokens = some (some (Content.mapping entries).node) := by
  have hnode := node_tokens (.mapping entries) (4 * ((Content.mapping entries).tokens.length + 1))
    ⟨Scope.standardHandles, []⟩ [] (by omega)
  rw [List.append_nil] at hnode
  have hroot : root ⟨Scope.standardHandles, []⟩ (Content.mapping entries).tokens =
      some (Content.mapping entries).node := by
    rw [root, hnode]
    rfl
  rw [Content.tokens] at hroot ⊢
  rw [document]
  · simp [directives, hroot]
  · exact List.cons_ne_nil _ _

end Reading

/-- A text that can be shown is read from its bytes as it is. -/
theorem Cursor.ofBytes?_of_shown {cs : List Char} (h : Shown cs) :
    Cursor.ofBytes? (String.ofList cs).toUTF8.data.toList = some ⟨{}, cs⟩ := by
  have hbytes : String.fromUTF8? (String.ofList cs).toUTF8.data.toList.toByteArray =
      some (String.ofList cs) := Wire.textOf?_toUTF8 _
  have hallowed : cs.all isAllowed = true :=
    List.all_eq_true.2 fun c hmem => isAllowed_of_isShown (h c hmem)
  rw [Cursor.ofBytes?, hbytes]
  simp only [Option.bind_eq_bind, Option.bind_some, String.toList_ofList, hallowed, if_true,
    unifyBreaks_of_shown h]

/-- The document that is written is the document that is read. -/
theorem Node.ofBytes?_writeEntries {entries : List (String × Content)} (hne : entries ≠ [])
    (hsound : SoundEntries entries) :
    Node.ofBytes? (String.ofList (writeEntries 0 entries)).toUTF8.data.toList =
      some (some (Content.mapping entries).node) := by
  rw [Node.ofBytes?, Cursor.ofBytes?_of_shown (shown_writeEntries 0 entries hsound)]
  simp only [Option.bind_eq_bind, Option.bind_some, Token.ofText?_writeEntries hne hsound,
    Reading.document_tokens]

end SchemaOptions.Yaml
