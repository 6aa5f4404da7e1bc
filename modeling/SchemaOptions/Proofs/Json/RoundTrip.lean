import SchemaOptions.Json.Layout
import SchemaOptions.Proofs.Json.Reader

/-!
# JSON values read back

What is written for a value is read as the value, whatever characters its texts hold and however
deep it is nested (`JsonValue.read?_render`). The layout of a value is cut into the tokens of the
value (`JsonValue.spells_layout`), so the blanks are gone; and the tokens of a value take a reader
from before the value to behind it, whatever is open around it (`JsonValue.takes_tokens`).
-/

namespace SchemaOptions

namespace Json

/-! ## Texts -/

/-- What the letters of escapes stand for, and that no other character has one. -/
theorem letter?_of_escapeLetter? {c letter : Char} (h : escapeLetter? c = some letter) :
    letter? letter = some c ∧ letter ≠ 'u' := by
  have hof {n : Nat} (hn : c.toNat = n) : Char.ofNat n = c := hn ▸ Char.ofNat_toNat c
  unfold escapeLetter? at h
  split at h
  all_goals cases h
  all_goals
    rename_i hn
    exact ⟨congrArg some (hof hn), by decide⟩

/-- The last two digits of an escaped control character are those of its number. -/
theorem digitsOf?_control : ∀ n < 32,
    Text.digitsOf? 16 ['0', '0', Nat.digitChar (n / 16), Nat.digitChar (n % 16)] = some n := by
  decide

/-- A character is read from what it is written as. -/
theorem character?_escape (c : Char) (rest : List Char) :
    character? (escape c ++ rest) = some (c, rest) := by
  unfold escape
  split
  · rename_i letter hletter
    obtain ⟨hread, hne⟩ := letter?_of_escapeLetter? hletter
    simp only [List.cons_append, List.nil_append, character?, escaped?, if_true, if_neg hne, hread,
      Option.map_some]
  · rename_i hletter
    split
    · rename_i hcontrol
      have hdigits := digitsOf?_control c.toNat hcontrol
      have hplain : c.toNat < 0xD800 ∨ 0xE000 ≤ c.toNat := by omega
      simp only [List.cons_append, List.nil_append, character?, escaped?, unicode?, unit?, if_true,
        hdigits, Option.map_some, if_pos hplain, Char.ofNat_toNat]
    · rename_i hcontrol
      have hquote : c ≠ '\x22' := by
        rintro rfl
        cases hletter
      have hbackslash : c ≠ '\\' := by
        rintro rfl
        cases hletter
      simp only [List.cons_append, List.nil_append, character?, hquote, hbackslash, hcontrol,
        or_self, if_false]

theorem body?_of_character? {cs left : List Char} {c : Char} (h : character? cs = some (c, left)) :
    body? cs = (body? left).map fun (others, rest) => (c :: others, rest) := by
  cases cs with
  | nil => cases h
  | cons first rest =>
    have hquote : first ≠ '\x22' := by
      rintro rfl
      cases h
    rw [body?, if_neg hquote]
    split
    · rename_i hnone
      rw [h] at hnone
      cases hnone
    · rename_i hsome
      rw [h] at hsome
      cases hsome
      rfl

/-- The characters of a text are read up to the quote behind them. -/
theorem body?_escape (cs rest : List Char) :
    body? (cs.flatMap escape ++ '\x22' :: rest) = some (cs, rest) := by
  induction cs with
  | nil =>
    rw [List.flatMap_nil, List.nil_append, body?, if_pos rfl]
  | cons c cs ih =>
    rw [List.flatMap_cons, List.append_assoc, body?_of_character? (character?_escape c _), ih]
    rfl

/-! ## Tokens -/

theorem tokens?_nil : tokens? [] = some [] := by
  rw [tokens?]

theorem tokens?_of_isBlank {c : Char} {rest : List Char} (h : isBlank c = true) :
    tokens? (c :: rest) = tokens? rest := by
  rw [tokens?, if_pos h]

/-- The first token is read, and then the others. -/
theorem tokens?_of_token? {c : Char} {rest left : List Char} {token : Token}
    (hc : isBlank c = false) (h : token? (c :: rest) = some (token, left)) :
    tokens? (c :: rest) = (tokens? left).map (token :: ·) := by
  rw [tokens?, if_neg (Bool.eq_false_iff.1 hc)]
  split
  · rename_i hnone
    rw [h] at hnone
    cases hnone
  · rename_i hsome
    rw [h] at hsome
    cases hsome
    rfl

/-- Whether characters are cut into some tokens, whatever follows them. -/
def Spells (cs : List Char) (tokens : List Token) : Prop :=
  ∀ rest, tokens? (cs ++ rest) = (tokens? rest).map (tokens ++ ·)

namespace Spells

theorem nil : Spells [] [] := by
  intro rest
  exact Option.map_id'.symm ▸ rfl

theorem append {cs ds : List Char} {tokens others : List Token} (h : Spells cs tokens)
    (hothers : Spells ds others) : Spells (cs ++ ds) (tokens ++ others) := by
  intro rest
  rw [List.append_assoc, h, hothers, Option.map_map]
  simp only [Function.comp_def, List.append_assoc]

theorem appendBlank {cs ds : List Char} {tokens : List Token} (h : Spells cs tokens)
    (hblank : Spells ds []) : Spells (cs ++ ds) tokens := by
  have happend := h.append hblank
  rwa [List.append_nil] at happend

theorem blanks {cs : List Char} (h : ∀ c ∈ cs, isBlank c = true) : Spells cs [] := by
  intro rest
  induction cs with
  | nil => exact Spells.nil rest
  | cons c cs ih =>
    rw [List.cons_append, tokens?_of_isBlank (h c List.mem_cons_self),
      ih fun c hc => h c (List.mem_cons_of_mem _ hc)]

theorem newLine (depth : Nat) : Spells (JsonValue.newLine depth) [] := by
  refine blanks fun c hc => ?_
  obtain rfl | hspace := List.mem_cons.1 hc
  · rfl
  · rw [List.eq_of_mem_replicate hspace]
    rfl

/-- A mark stands for itself. -/
theorem mark {c : Char} {token : Token} (h : mark? c = some token) (hc : isBlank c = false) :
    Spells [c] [token] := by
  intro rest
  refine tokens?_of_token? hc ?_
  simp only [token?, h]
  rfl

theorem quoted (s : String) : Spells (Json.quoted s) [.text s] := by
  intro rest
  refine tokens?_of_token? rfl ?_
  show (body? ((s.toList.flatMap escape ++ ['\x22']) ++ rest)).map _ = _
  rw [List.append_assoc, List.singleton_append, body?_escape, Option.map_some]
  simp only [String.ofList_toList]

theorem flagText (b : Bool) : Spells (JsonValue.flagText b) [.flag b] := by
  intro rest
  cases b <;> exact tokens?_of_token? rfl rfl

end Spells

end Json

namespace JsonValue

open SchemaOptions.Json

mutual

/-- The document that a value is. -/
def document : JsonValue → Document
  | .text s => .text s
  | .flag b => .flag b
  | .list items => .list (documents items)
  | .object members => .object (memberDocuments members)

/-- The documents that values are. -/
def documents : List JsonValue → List Document
  | [] => []
  | item :: rest => item.document :: documents rest

/-- The members of the document that an object is. -/
def memberDocuments : List (String × JsonValue) → List (String × Document)
  | [] => []
  | (key, value) :: rest => (key, value.document) :: memberDocuments rest

end

mutual

/-- The tokens of a value. -/
def tokens : JsonValue → List Token
  | .text s => [.text s]
  | .flag b => [.flag b]
  | .list [] => [.openList, .closeList]
  | .list (item :: rest) => .openList :: item.tokens ++ itemTokens rest ++ [.closeList]
  | .object [] => [.openObject, .closeObject]
  | .object ((key, value) :: rest) =>
    .openObject :: .text key :: .colon :: value.tokens ++ memberTokens rest ++ [.closeObject]

/-- The tokens of the items behind the first. -/
def itemTokens : List JsonValue → List Token
  | [] => []
  | item :: rest => .comma :: item.tokens ++ itemTokens rest

/-- The tokens of the members behind the first. -/
def memberTokens : List (String × JsonValue) → List Token
  | [] => []
  | (key, value) :: rest => .comma :: .text key :: .colon :: value.tokens ++ memberTokens rest

end

theorem documents_eq_map (items : List JsonValue) : documents items = items.map document := by
  induction items with
  | nil => rfl
  | cons item rest ih => rw [documents, ih, List.map_cons]

theorem memberDocuments_eq_map (members : List (String × JsonValue)) :
    memberDocuments members = members.map fun (key, value) => (key, value.document) := by
  induction members with
  | nil => rfl
  | cons member rest ih => rw [memberDocuments, ih, List.map_cons]

/-! ## The tokens of a layout -/

theorem spells_openList : Spells ['['] [.openList] := .mark rfl rfl

theorem spells_closeList : Spells [']'] [.closeList] := .mark rfl rfl

theorem spells_openObject : Spells ['\x7b'] [.openObject] := .mark rfl rfl

theorem spells_closeObject : Spells ['\x7d'] [.closeObject] := .mark rfl rfl

theorem spells_comma : Spells [','] [.comma] := .mark rfl rfl

theorem spells_colon : Spells [':', ' '] [.colon] :=
  (Spells.mark rfl rfl : Spells [':'] [.colon]).appendBlank
    (.blanks (List.forall_mem_singleton.2 rfl))

mutual

/-- The layout of a value is cut into the tokens of the value. -/
theorem spells_layout (depth : Nat) : ∀ value : JsonValue, Spells (value.layout depth) value.tokens
  | .text s => .quoted s
  | .flag b => .flagText b
  | .list [] => spells_openList.append spells_closeList
  | .list (item :: rest) =>
    spells_openList.appendBlank (.newLine (depth + 1))
      |>.append (spells_layout (depth + 1) item)
      |>.append (spells_layoutItems (depth + 1) rest)
      |>.appendBlank (.newLine depth)
      |>.append spells_closeList
  | .object [] => spells_openObject.append spells_closeObject
  | .object ((key, value) :: rest) =>
    spells_openObject.appendBlank (.newLine (depth + 1))
      |>.append (.quoted key)
      |>.append spells_colon
      |>.append (spells_layout (depth + 1) value)
      |>.append (spells_layoutMembers (depth + 1) rest)
      |>.appendBlank (.newLine depth)
      |>.append spells_closeObject

theorem spells_layoutItems (depth : Nat) :
    ∀ items : List JsonValue, Spells (layoutItems depth items) (itemTokens items)
  | [] => .nil
  | item :: rest =>
    spells_comma.appendBlank (.newLine depth)
      |>.append (spells_layout depth item)
      |>.append (spells_layoutItems depth rest)

theorem spells_layoutMembers (depth : Nat) :
    ∀ members : List (String × JsonValue),
    Spells (layoutMembers depth members) (memberTokens members)
  | [] => .nil
  | (key, value) :: rest =>
    spells_comma.appendBlank (.newLine depth)
      |>.append (.quoted key)
      |>.append spells_colon
      |>.append (spells_layout depth value)
      |>.append (spells_layoutMembers depth rest)

end

/-! ## The document of a row of tokens -/

/-- Whether tokens take a reader from one place to another. -/
def Takes (tokens : List Token) (reader next : Reader) : Prop :=
  tokens.foldlM Reader.step reader = some next

theorem Takes.append {tokens others : List Token} {reader next last : Reader}
    (h : Takes tokens reader next) (hothers : Takes others next last) :
    Takes (tokens ++ others) reader last := by
  rw [Takes, List.foldlM_append, h]
  exact hothers

variable {outer : List Frame}

/-- A value is read as the first item of a list as anywhere else. -/
theorem Takes.ofFirst {value : JsonValue} {next : Reader}
    (h : Takes value.tokens (.beforeValue (.list [] :: outer)) next) :
    Takes value.tokens (.listStart outer) next := by
  rcases value with s | b | ⟨_ | ⟨item, rest⟩⟩ | ⟨_ | ⟨⟨key, value⟩, rest⟩⟩ <;> exact h

mutual

/-- The tokens of a value take a reader from before the value to behind it. -/
theorem takes_tokens (outer : List Frame) : ∀ value : JsonValue,
    Takes value.tokens (.beforeValue outer) (.behindValue value.document outer)
  | .text s => rfl
  | .flag b => rfl
  | .list [] => rfl
  | .list (item :: rest) => by
    have hopen : Takes [.openList] (.beforeValue outer) (.listStart outer) := rfl
    have hitem := takes_tokens (.list [] :: outer) item
    have hrest := takes_itemTokens item.document [] outer rest
    rw [tokens, List.append_assoc]
    exact (hopen.append hitem.ofFirst).append hrest
  | .object [] => rfl
  | .object ((key, value) :: rest) => by
    have hkey : Takes [.openObject, .text key, .colon] (.beforeValue outer)
        (.beforeValue (.object [] key :: outer)) := rfl
    have hvalue := takes_tokens (.object [] key :: outer) value
    have hrest := takes_memberTokens key value.document [] outer rest
    rw [tokens, List.append_assoc]
    exact (hkey.append hvalue).append hrest

/-- The tokens behind an item close the list, with all its items in order. -/
theorem takes_itemTokens (value : Document) (items : List Document) (outer : List Frame) :
    ∀ rest : List JsonValue,
    Takes (itemTokens rest ++ [.closeList]) (.behindValue value (.list items :: outer))
      (.behindValue (.list (items.reverse ++ value :: documents rest)) outer)
  | [] => by
    rw [documents, ← List.reverse_cons]
    rfl
  | item :: rest => by
    have hcomma : Takes [.comma] (.behindValue value (.list items :: outer))
        (.beforeValue (.list (value :: items) :: outer)) := rfl
    have hitem := takes_tokens (.list (value :: items) :: outer) item
    have hrest := takes_itemTokens item.document (value :: items) outer rest
    rw [List.reverse_cons, List.append_assoc] at hrest
    rw [itemTokens, List.append_assoc]
    exact (hcomma.append hitem).append hrest

/-- The tokens behind a member close the object, with all its members in order. -/
theorem takes_memberTokens (key : String) (value : Document) (members : List (String × Document))
    (outer : List Frame) : ∀ rest : List (String × JsonValue),
    Takes (memberTokens rest ++ [.closeObject]) (.behindValue value (.object members key :: outer))
      (.behindValue (.object (members.reverse ++ (key, value) :: memberDocuments rest)) outer)
  | [] => by
    rw [memberDocuments, ← List.reverse_cons]
    rfl
  | (next, nextValue) :: rest => by
    have hkey : Takes [.comma, .text next, .colon]
        (.behindValue value (.object members key :: outer))
        (.beforeValue (.object ((key, value) :: members) next :: outer)) := rfl
    have hvalue := takes_tokens (.object ((key, value) :: members) next :: outer) nextValue
    have hrest := takes_memberTokens next nextValue.document ((key, value) :: members) outer rest
    rw [List.reverse_cons, List.append_assoc] at hrest
    rw [memberTokens, List.append_assoc]
    exact (hkey.append hvalue).append hrest

end

/-- What is written for a value is read as the value, whatever blanks follow it. -/
theorem read?_render (value : JsonValue) {blanks : String}
    (h : ∀ c ∈ blanks.toList, isBlank c = true) :
    Json.read? (value.render ++ blanks) = some value.document := by
  have htokens : tokens? (value.render ++ blanks).toList = some value.tokens := by
    rw [String.toList_append, render, String.toList_ofList, spells_layout 0 value,
      ← List.append_nil blanks.toList, Spells.blanks h, tokens?_nil]
    simp only [Option.map_some, List.append_nil]
  have hreader : value.tokens.foldlM Reader.step (.beforeValue []) =
      some (.behindValue value.document []) := takes_tokens [] value
  simp only [Json.read?, htokens, hreader, Option.bind_eq_bind, Option.bind_some, Reader.document?]

end JsonValue

end SchemaOptions
