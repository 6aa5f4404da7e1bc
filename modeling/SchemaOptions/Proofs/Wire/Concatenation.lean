import SchemaOptions.Proofs.Wire.Conforms

/-!
# Reading one message behind another

Whatever stands behind a number, a content or a token does not change how it is read. So bytes that
are cut into tokens can have any others behind them, and what a reader makes of both is what it
makes of the second, starting from what it made of the first (`readWithin_append`). This holds of
all bytes that are read, fields that are not known and groups included.

If the only field of a message is one of messages that may repeat, what was there before stays in
front (`readTokens_behind`). So the entries of both are those of the first and then those of the
second (`read?_append`).
-/

namespace SchemaOptions.Wire

/-! ## More bytes -/

/-- A number is read whatever stands behind it. -/
theorem Varint.readWithin_extend {limit n : Nat} {bytes rest : List UInt8}
    (h : readWithin limit bytes = some (n, rest)) (more : List UInt8) :
    readWithin limit (bytes ++ more) = some (n, rest ++ more) := by
  induction limit generalizing bytes rest n with
  | zero =>
    rw [readWithin] at h
    cases h
  | succ limit ih =>
    cases bytes with
    | nil =>
      rw [readWithin] at h
      cases h
    | cons b tail =>
      rw [List.cons_append]
      simp only [readWithin] at h ⊢
      split at h
      · rename_i hlast
        rw [if_pos hlast]
        split at h
        · cases h
        · rename_i hfits
          cases h
          exact if_neg hfits
      · rename_i hmore
        obtain ⟨⟨high, after⟩, hread, heq⟩ := Option.map_eq_some_iff.1 h
        cases heq
        rw [if_neg hmore, ih hread]
        rfl

theorem takeBytes?_extend {count : Nat} {bytes taken rest : List UInt8}
    (h : takeBytes? count bytes = some (taken, rest)) (more : List UInt8) :
    takeBytes? count (bytes ++ more) = some (taken, rest ++ more) := by
  rw [takeBytes?] at h ⊢
  split at h
  · rename_i hcount
    rw [List.splitAt_eq] at h
    cases h
    have hmore : count ≤ (bytes ++ more).length := by
      rw [List.length_append]
      omega
    rw [if_pos hmore, List.splitAt_eq, List.take_append_of_le_length hcount,
      List.drop_append_of_le_length hcount]
  · cases h

/-- A content is read whatever stands behind it. -/
theorem Content.read?_extend {layout : Nat} {bytes rest : List UInt8} {content : Content}
    (h : Content.read? layout bytes = some (content, rest)) (more : List UInt8) :
    Content.read? layout (bytes ++ more) = some (content, rest ++ more) := by
  unfold Content.read? at h ⊢
  split at h
  · obtain ⟨⟨n, after⟩, hread, heq⟩ := Option.map_eq_some_iff.1 h
    cases heq
    rw [Varint.read?, Varint.readWithin_extend hread]
    rfl
  · obtain ⟨⟨taken, after⟩, htake, heq⟩ := Option.map_eq_some_iff.1 h
    cases heq
    rw [takeBytes?_extend htake]
    rfl
  · split at h
    · cases h
    · rename_i count after hread
      obtain ⟨⟨taken, last⟩, htake, heq⟩ := Option.map_eq_some_iff.1 h
      cases heq
      simp only [Varint.read?, Varint.readWithin_extend hread, takeBytes?_extend htake,
        Option.map_some]
  · cases h
    rfl
  · cases h
    rfl
  · obtain ⟨⟨taken, after⟩, htake, heq⟩ := Option.map_eq_some_iff.1 h
    cases heq
    rw [takeBytes?_extend htake]
    rfl
  · cases h

namespace Token

/-- A token is read whatever stands behind it. -/
theorem read?_extend {bytes rest : List UInt8} {token : Token}
    (h : Token.read? bytes = some (token, rest)) (more : List UInt8) :
    Token.read? (bytes ++ more) = some (token, rest ++ more) := by
  unfold Token.read? at h ⊢
  split at h
  · cases h
  · rename_i key after hread
    simp only [Varint.read?, Varint.readWithin_extend hread]
    split at h
    · rename_i hkey
      obtain ⟨⟨content, last⟩, hcontent, heq⟩ := Option.map_eq_some_iff.1 h
      cases heq
      rw [if_pos hkey, Content.read?_extend hcontent]
      rfl
    · cases h

/-- The tokens of bytes with others behind them are those of the first and then those of the
second. -/
theorem readAll?_extend {bytes : List UInt8} {tokens : List Token}
    (h : Token.readAll? bytes = some tokens) (more : List UInt8) :
    Token.readAll? (bytes ++ more) = (Token.readAll? more).map (tokens ++ ·) := by
  fun_induction Token.readAll? bytes generalizing tokens with
  | case1 =>
    cases h
    exact Option.map_id'.symm
  | case2 => cases h
  | case3 b tail token rest hread ih =>
    obtain ⟨others, hothers, rfl⟩ := Option.map_eq_some_iff.1 h
    rw [readAll?_of_read? (read?_extend hread more), ih hothers, Option.map_map]
    rfl

end Token

/-! ## Reading on -/

section

variable {enter : MessageType → Record → List UInt8 → Option Record} {budget : Nat}
  {type : MessageType} {start out : Record} {bytes : List UInt8}

/-- A reader that is done with some bytes is between two tokens of them and any others. -/
theorem readTokens_append (h : readTokens enter budget type start bytes = some out)
    (more : List UInt8) :
    readTokens enter budget type start (bytes ++ more) =
      readTokens enter budget type out more := by
  obtain ⟨tokens, htokens, hread⟩ := Option.bind_eq_some_iff.1 h
  obtain ⟨⟨groups, record⟩, hfold, hlast⟩ := Option.bind_eq_some_iff.1 hread
  split at hlast
  · rename_i hclosed
    cases hlast
    obtain rfl : groups = [] := List.isEmpty_iff.1 hclosed
    rw [readTokens, Token.readAll?_extend htokens, readTokens]
    cases Token.readAll? more with
    | none => rfl
    | some others =>
      show (tokens ++ others).foldlM (Progress.step enter budget type) ⟨[], start⟩ >>= _ = _
      rw [List.foldlM_append, hfold]
      rfl
  · cases hlast

end

/-- Reading bytes with others behind them is reading the others, starting from what was made of
the first. -/
theorem readWithin_append {budget : Nat} {type : MessageType} {start out : Record}
    {bytes : List UInt8} (h : readWithin budget type start bytes = some out) (more : List UInt8) :
    readWithin budget type start (bytes ++ more) = readWithin budget type out more := by
  cases budget with
  | zero => exact readTokens_append h more
  | succ budget => exact readTokens_append h more

/-! ## A message whose only field repeats -/

/-- The progress with some entries in front. -/
def Progress.behind (first : Record) (progress : Progress) : Progress :=
  { progress with record := first ++ progress.record }

/-- Skipping does not look at the record. -/
theorem Progress.skip_behind (budget : Nat) (token : Token) (first : Record)
    (progress : Progress) :
    (progress.behind first).skip budget token =
      (progress.skip budget token).map (Progress.behind first) := by
  obtain ⟨groups, record⟩ := progress
  obtain ⟨tag, content⟩ := token
  cases groups <;> cases content <;>
    simp only [Progress.skip, apply_ite (Option.map (behind first)), Option.map_some,
      Option.map_none] <;>
    rfl

section

variable {enter : MessageType → Record → List UInt8 → Option Record} {budget : Nat}
  {type within : MessageType} {field : Field} {first : Record}

/-- A message goes behind those that are there. -/
theorem Field.take_behind (hrepeated : field.occurrence = .repeated)
    (htype : field.type = .message within) (hfirst : ∀ entry ∈ first, entry.1 ≤ field.tag)
    (content : Content) (record : Record) :
    field.take enter content (first ++ record) =
      (field.take enter content record).map (first ++ ·) := by
  cases content with
  | chunk bytes =>
    simp only [Field.take, htype, if_pos hrepeated, Option.map_map]
    refine congrArg (Option.map · _) (funext fun inner => ?_)
    exact Record.insert_behind hfirst record
  | _ => simp only [Field.take, htype, FieldType.plain?, Option.map_none]

theorem Progress.step_behind (hfields : type.fields = [field])
    (hrepeated : field.occurrence = .repeated) (htype : field.type = .message within)
    (hfirst : ∀ entry ∈ first, entry.1 ≤ field.tag) (progress : Progress) (token : Token) :
    (progress.behind first).step enter budget type token =
      (progress.step enter budget type token).map (Progress.behind first) := by
  have hskip := Progress.skip_behind budget token first progress
  unfold Progress.step
  split
  · rename_i hclosed
    rw [if_pos (show progress.openGroups.isEmpty = true from hclosed)]
    split
    · rename_i known hknown
      obtain ⟨hmem, -⟩ := MessageType.mem_fields_of_field? hknown
      rw [hfields] at hmem
      obtain rfl := List.mem_singleton.1 hmem
      simp only [Progress.behind, Field.take_behind hrepeated htype hfirst, Option.map_map]
      rfl
    · exact hskip
  · rename_i hopen
    rw [if_neg (show ¬progress.openGroups.isEmpty = true from hopen)]
    exact hskip

theorem Progress.foldlM_behind (hfields : type.fields = [field])
    (hrepeated : field.occurrence = .repeated) (htype : field.type = .message within)
    (hfirst : ∀ entry ∈ first, entry.1 ≤ field.tag) (tokens : List Token) (progress : Progress) :
    tokens.foldlM (Progress.step enter budget type) (progress.behind first) =
      (tokens.foldlM (Progress.step enter budget type) progress).map (Progress.behind first) := by
  induction tokens generalizing progress with
  | nil => rfl
  | cons token rest ih =>
    rw [List.foldlM_cons, List.foldlM_cons,
      Progress.step_behind hfields hrepeated htype hfirst]
    cases progress.step enter budget type token with
    | none => rfl
    | some next => exact ih next

/-- What a reader makes of bytes goes behind what was there before. -/
theorem readTokens_behind (hfields : type.fields = [field])
    (hrepeated : field.occurrence = .repeated) (htype : field.type = .message within)
    (hfirst : ∀ entry ∈ first, entry.1 ≤ field.tag) (start : Record) (bytes : List UInt8) :
    readTokens enter budget type (first ++ start) bytes =
      (readTokens enter budget type start bytes).map (first ++ ·) := by
  unfold readTokens
  cases Token.readAll? bytes with
  | none => rfl
  | some tokens =>
    have hfold : tokens.foldlM (Progress.step enter budget type) ⟨[], first ++ start⟩ =
        (tokens.foldlM (Progress.step enter budget type) ⟨[], start⟩).map
          (Progress.behind first) :=
      Progress.foldlM_behind hfields hrepeated htype hfirst tokens ⟨[], start⟩
    show tokens.foldlM (Progress.step enter budget type) ⟨[], first ++ start⟩ >>= _ =
      (tokens.foldlM (Progress.step enter budget type) ⟨[], start⟩ >>= _).map _
    rw [hfold]
    cases tokens.foldlM (Progress.step enter budget type) ⟨[], start⟩ with
    | none => rfl
    | some last =>
      show (if last.openGroups.isEmpty then some (first ++ last.record) else none) =
        (if last.openGroups.isEmpty then some last.record else none).map (first ++ ·)
      split <;> rfl

end

/-- Bytes of two messages whose only field repeats are a message with the entries of the first and
then those of the second, and nothing if the second are none. -/
theorem read?_append {type within : MessageType} {field : Field} {bytes : List UInt8}
    {first : Record} (hfields : type.fields = [field]) (hrepeated : field.occurrence = .repeated)
    (htype : field.type = .message within) (h : read? type bytes = some first)
    (more : List UInt8) : read? type (bytes ++ more) = (read? type more).map (first ++ ·) := by
  have hblank : type.blank = [] := by
    simp only [MessageType.blank, hfields, List.filterMap_cons, List.filterMap_nil, hrepeated,
      reduceCtorEq, if_false]
  have hfirst : ∀ entry ∈ first, entry.1 ≤ field.tag := by
    have hconforms : WellFormed _ type first := conforms_of_read? h
    intro entry hmem
    obtain ⟨known, hknown, -⟩ := hconforms.admitted entry hmem
    obtain ⟨hknown, htag⟩ := MessageType.mem_fields_of_field? hknown
    rw [hfields] at hknown
    obtain rfl := List.mem_singleton.1 hknown
    exact Nat.le_of_eq htag.symm
  calc read? type (bytes ++ more)
      = readWithin nestingLimit type (first ++ []) more := by
        rw [read?, readWithin_append h, List.append_nil]
    _ = (readWithin nestingLimit type [] more).map (first ++ ·) :=
        readTokens_behind hfields hrepeated htype hfirst [] more
    _ = (read? type more).map (first ++ ·) := by
        rw [read?, hblank]

end SchemaOptions.Wire
