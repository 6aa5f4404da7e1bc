import SchemaOptions.Text.Digits

/-!
# A reader of JSON

The reader takes any JSON text, however it is laid out and whatever is escaped in it. A text is cut
into tokens, between which there may be blanks (`tokens?`). The tokens are then taken one by one by
a reader that knows which lists and objects are open (`Reader.step`). Numbers are kept as they are
written.
-/

namespace SchemaOptions.Json

/-- What a JSON text says. The members of an object are in the order in which they are written. -/
inductive Document where
  | null
  | flag (b : Bool)
  | number (digits : List Char)
  | text (s : String)
  | list (items : List Document)
  | object (members : List (String × Document))

/-- The tokens of a JSON text. -/
inductive Token where
  | openList
  | closeList
  | openObject
  | closeObject
  | comma
  | colon
  | null
  | flag (b : Bool)
  | number (digits : List Char)
  | text (s : String)
deriving DecidableEq

/-! ## Texts -/

/-- The number of four hexadecimal digits. -/
def unit? : List Char → Option (Nat × List Char)
  | a :: b :: c :: d :: rest => (Text.digitsOf? 16 [a, b, c, d]).map fun n => (n, rest)
  | _ => none

/-- The character whose number is escaped. One beyond 2^16 is escaped as two surrogates, and there
are no surrogates otherwise. -/
def unicode? (cs : List Char) : Option (Char × List Char) :=
  match unit? cs with
  | none => none
  | some (first, rest) =>
    if first < 0xD800 ∨ 0xE000 ≤ first then
      some (Char.ofNat first, rest)
    else
      match rest with
      | '\\' :: 'u' :: more =>
        match unit? more with
        | none => none
        | some (second, rest) =>
          if first < 0xDC00 ∧ 0xDC00 ≤ second ∧ second < 0xE000 then
            some (Char.ofNat (0x10000 + 0x400 * (first - 0xD800) + (second - 0xDC00)), rest)
          else
            none
      | _ => none

/-- The character for which a letter stands behind a backslash. -/
def letter? : Char → Option Char
  | '\x22' => some '\x22'
  | '\\' => some '\\'
  | '/' => some '/'
  | 'b' => some '\x08'
  | 'f' => some '\x0C'
  | 'n' => some '\n'
  | 'r' => some '\r'
  | 't' => some '\t'
  | _ => none

/-- The character that is escaped behind a backslash. -/
def escaped? : List Char → Option (Char × List Char)
  | [] => none
  | letter :: rest =>
    if letter = 'u' then unicode? rest else (letter? letter).map fun c => (c, rest)

/-- The first character of what stands between quotes. A quote and the control characters below the
space do not stand there unless they are escaped. -/
def character? : List Char → Option (Char × List Char)
  | [] => none
  | c :: rest =>
    if c = '\\' then escaped? rest
    else if c = '\x22' ∨ c.toNat < 0x20 then none
    else some (c, rest)

theorem unit?_shortens {cs rest : List Char} {n : Nat} (h : unit? cs = some (n, rest)) :
    rest.length < cs.length := by
  unfold unit? at h
  split at h
  · obtain ⟨_, -, heq⟩ := Option.map_eq_some_iff.1 h
    cases heq
    simp only [List.length_cons]
    omega
  · cases h

theorem unicode?_shortens {cs rest : List Char} {c : Char} (h : unicode? cs = some (c, rest)) :
    rest.length < cs.length := by
  unfold unicode? at h
  split at h
  · cases h
  · rename_i hfirst
    have hfirst := unit?_shortens hfirst
    split at h
    · cases h
      exact hfirst
    · split at h
      · split at h
        · cases h
        · rename_i hsecond
          have hsecond := unit?_shortens hsecond
          split at h
          · obtain ⟨-, rfl⟩ := Prod.mk.inj (Option.some.inj h)
            simp only [List.length_cons] at hfirst
            omega
          · cases h
      · cases h

theorem escaped?_shortens {cs rest : List Char} {c : Char} (h : escaped? cs = some (c, rest)) :
    rest.length < cs.length := by
  unfold escaped? at h
  split at h
  · cases h
  · split at h
    · exact Nat.lt_succ_of_lt (unicode?_shortens h)
    · obtain ⟨_, -, heq⟩ := Option.map_eq_some_iff.1 h
      cases heq
      exact Nat.lt_succ_self _

/-- A character is read from at least one. -/
theorem character?_shortens {cs rest : List Char} {c : Char} (h : character? cs = some (c, rest)) :
    rest.length < cs.length := by
  unfold character? at h
  split at h
  · cases h
  · split at h
    · exact Nat.lt_succ_of_lt (escaped?_shortens h)
    · split at h
      · cases h
      · cases h
        exact Nat.lt_succ_self _

/-- The characters up to the closing quote, and what follows it. -/
def body? (cs : List Char) : Option (List Char × List Char) :=
  match cs with
  | [] => none
  | c :: rest =>
    if c = '\x22' then
      some ([], rest)
    else
      match _ : character? (c :: rest) with
      | none => none
      | some (first, left) => (body? left).map fun (others, left) => (first :: others, left)
termination_by cs.length
decreasing_by exact character?_shortens ‹_›

theorem body?_shortens {cs : List Char} : ∀ {read rest : List Char},
    body? cs = some (read, rest) → rest.length < cs.length := by
  fun_induction body? cs with
  | case1 => exact nofun
  | case2 =>
    rintro _ _ ⟨⟩
    exact Nat.lt_succ_self _
  | case3 => exact nofun
  | case4 c rest _ first left hfirst ih =>
    intro read others h
    obtain ⟨⟨_, _⟩, hothers, heq⟩ := Option.map_eq_some_iff.1 h
    cases heq
    exact Nat.lt_trans (ih hothers) (character?_shortens hfirst)

/-! ## Words and numbers -/

/-- A word at the head of a row. -/
def word? : List Char → Option (Token × List Char)
  | 'n' :: 'u' :: 'l' :: 'l' :: rest => some (.null, rest)
  | 't' :: 'r' :: 'u' :: 'e' :: rest => some (.flag true, rest)
  | 'f' :: 'a' :: 'l' :: 's' :: 'e' :: rest => some (.flag false, rest)
  | _ => none

/-- What follows a sign, if there is one. -/
def afterSign (signs : List Char) : List Char → List Char
  | [] => []
  | c :: rest => if signs.contains c then rest else c :: rest

/-- What follows at least one digit. -/
def afterDigits? : List Char → Option (List Char)
  | [] => none
  | c :: rest => if c.isDigit then some (rest.dropWhile Char.isDigit) else none

/-- What follows a whole number. It does not begin with a zero unless it is zero. -/
def afterWhole? : List Char → Option (List Char)
  | '0' :: rest => some rest
  | cs => afterDigits? cs

/-- What follows a fraction, if there is one. -/
def afterFraction? : List Char → Option (List Char)
  | '.' :: rest => afterDigits? rest
  | cs => some cs

/-- What follows an exponent, if there is one. -/
def afterExponent? : List Char → Option (List Char)
  | 'e' :: rest => afterDigits? (afterSign ['+', '-'] rest)
  | 'E' :: rest => afterDigits? (afterSign ['+', '-'] rest)
  | cs => some cs

/-- A number at the head of a row. -/
def number? (cs : List Char) : Option (Token × List Char) := do
  let rest ← afterWhole? (afterSign ['-'] cs)
  let rest ← afterFraction? rest
  let rest ← afterExponent? rest
  return (.number (cs.take (cs.length - rest.length)), rest)

theorem word?_shortens {cs rest : List Char} {token : Token} (h : word? cs = some (token, rest)) :
    rest.length < cs.length := by
  unfold word? at h
  split at h
  all_goals cases h
  all_goals
    simp only [List.length_cons]
    omega

theorem afterSign_length (signs cs : List Char) : (afterSign signs cs).length ≤ cs.length := by
  unfold afterSign
  split
  · exact Nat.le_refl _
  · split
    · exact Nat.le_succ _
    · exact Nat.le_refl _

theorem afterDigits?_shortens {cs rest : List Char} (h : afterDigits? cs = some rest) :
    rest.length < cs.length := by
  unfold afterDigits? at h
  split at h
  · cases h
  · split at h
    · cases h
      exact Nat.lt_succ_of_le (List.dropWhile_sublist _).length_le
    · cases h

theorem afterWhole?_shortens {cs rest : List Char} (h : afterWhole? cs = some rest) :
    rest.length < cs.length := by
  unfold afterWhole? at h
  split at h
  · cases h
    exact Nat.lt_succ_self _
  · exact afterDigits?_shortens h

theorem afterFraction?_length {cs rest : List Char} (h : afterFraction? cs = some rest) :
    rest.length ≤ cs.length := by
  unfold afterFraction? at h
  split at h
  · exact Nat.le_succ_of_le (Nat.le_of_lt (afterDigits?_shortens h))
  · cases h
    exact Nat.le_refl _

theorem afterExponent?_length {cs rest : List Char} (h : afterExponent? cs = some rest) :
    rest.length ≤ cs.length := by
  have hsigned (row : List Char) (h : afterDigits? (afterSign ['+', '-'] row) = some rest) :
      rest.length ≤ row.length + 1 :=
    Nat.le_succ_of_le (Nat.le_trans (Nat.le_of_lt (afterDigits?_shortens h)) (afterSign_length _ _))
  unfold afterExponent? at h
  split at h
  · exact hsigned _ h
  · exact hsigned _ h
  · cases h
    exact Nat.le_refl _

theorem number?_shortens {cs rest : List Char} {token : Token}
    (h : number? cs = some (token, rest)) : rest.length < cs.length := by
  simp only [number?, Option.bind_eq_bind, Option.bind_eq_some_iff, Option.pure_def,
    Option.some.injEq, Prod.mk.injEq] at h
  obtain ⟨behind, hwhole, fraction, hfraction, exponent, hexponent, -, rfl⟩ := h
  have := afterSign_length ['-'] cs
  have := afterWhole?_shortens hwhole
  have := afterFraction?_length hfraction
  have := afterExponent?_length hexponent
  omega

/-! ## Rows of tokens -/

/-- The tokens of a single character. -/
def mark? : Char → Option Token
  | '[' => some .openList
  | ']' => some .closeList
  | '\x7b' => some .openObject
  | '\x7d' => some .closeObject
  | ',' => some .comma
  | ':' => some .colon
  | _ => none

/-- The token at the head of a row, and what follows it. -/
def token? : List Char → Option (Token × List Char)
  | [] => none
  | c :: rest =>
    match mark? c with
    | some token => some (token, rest)
    | none =>
      if c = '\x22' then (body? rest).map fun (read, rest) => (.text (String.ofList read), rest)
      else (word? (c :: rest)).or (number? (c :: rest))

/-- A token takes at least one character. -/
theorem token?_shortens {cs rest : List Char} {token : Token} (h : token? cs = some (token, rest)) :
    rest.length < cs.length := by
  unfold token? at h
  split at h
  · cases h
  · split at h
    · cases h
      exact Nat.lt_succ_self _
    · split at h
      · obtain ⟨⟨_, _⟩, hbody, heq⟩ := Option.map_eq_some_iff.1 h
        cases heq
        exact Nat.lt_succ_of_lt (body?_shortens hbody)
      · obtain hword | ⟨-, hnumber⟩ := Option.or_eq_some_iff.1 h
        · exact word?_shortens hword
        · exact number?_shortens hnumber

/-- The characters that may stand between tokens. -/
def isBlank (c : Char) : Bool :=
  c = ' ' || c = '\t' || c = '\n' || c = '\r'

/-- The tokens of a row of characters; nothing if some part of it is no token. -/
def tokens? (cs : List Char) : Option (List Token) :=
  match cs with
  | [] => some []
  | c :: rest =>
    if isBlank c then
      tokens? rest
    else
      match _ : token? (c :: rest) with
      | none => none
      | some (token, left) => (tokens? left).map (token :: ·)
termination_by cs.length
decreasing_by
  · exact Nat.lt_succ_self _
  · exact token?_shortens ‹_›

/-! ## Documents -/

/-- A list or an object that is open, with what was read of it, the last first. -/
inductive Frame where
  | list (items : List Document)
  /-- The value of the key is yet to come. -/
  | object (members : List (String × Document)) (key : String)

/-- Where a reader stands. The innermost of the open lists and objects is the first. -/
inductive Reader where
  | beforeValue (outer : List Frame)
  /-- Behind the bracket that opens a list. -/
  | listStart (outer : List Frame)
  /-- Behind the brace that opens an object. -/
  | objectStart (outer : List Frame)
  /-- Behind a comma in an object. -/
  | beforeKey (members : List (String × Document)) (outer : List Frame)
  | behindKey (members : List (String × Document)) (key : String) (outer : List Frame)
  | behindValue (value : Document) (outer : List Frame)

namespace Reader

/-- Takes the first token of a value. -/
def start (outer : List Frame) : Token → Option Reader
  | .null => some (.behindValue .null outer)
  | .flag b => some (.behindValue (.flag b) outer)
  | .number digits => some (.behindValue (.number digits) outer)
  | .text s => some (.behindValue (.text s) outer)
  | .openList => some (.listStart outer)
  | .openObject => some (.objectStart outer)
  | _ => none

/-- Takes a token. -/
def step : Reader → Token → Option Reader
  | .beforeValue outer, token => start outer token
  | .listStart outer, .closeList => some (.behindValue (.list []) outer)
  | .listStart outer, token => start (.list [] :: outer) token
  | .objectStart outer, .closeObject => some (.behindValue (.object []) outer)
  | .objectStart outer, .text key => some (.behindKey [] key outer)
  | .beforeKey members outer, .text key => some (.behindKey members key outer)
  | .behindKey members key outer, .colon => some (.beforeValue (.object members key :: outer))
  | .behindValue value (.list items :: outer), .comma =>
    some (.beforeValue (.list (value :: items) :: outer))
  | .behindValue value (.list items :: outer), .closeList =>
    some (.behindValue (.list (value :: items).reverse) outer)
  | .behindValue value (.object members key :: outer), .comma =>
    some (.beforeKey ((key, value) :: members) outer)
  | .behindValue value (.object members key :: outer), .closeObject =>
    some (.behindValue (.object ((key, value) :: members).reverse) outer)
  | _, _ => none

/-- The document that was read, if nothing is open. -/
def document? : Reader → Option Document
  | .behindValue document [] => some document
  | _ => none

end Reader

/-- The document that a text spells. -/
def read? (s : String) : Option Document := do
  let tokens ← tokens? s.toList
  let reader ← tokens.foldlM Reader.step (.beforeValue [])
  reader.document?

end SchemaOptions.Json
