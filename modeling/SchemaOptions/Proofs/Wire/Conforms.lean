import Mathlib.Data.List.Nodup
import SchemaOptions.Proofs.Wire.Token

/-!
# Records that conform to the schema

A record conforms to a kind of message if its tags ascend, its fields are known ones with values of
their types, a field that may occur once does so at most, and required fields are there
(`WellFormed`). What its own messages must be is a parameter; `Conforms` ties the knot along the
budget for nesting, as the reader does. Whatever is read conforms (`conforms_of_read?`), so an
image that was decoded holds conforming records only.
-/

namespace SchemaOptions.Wire

/-! ## Facts about the schema -/

/-- Whether a field holds a message. -/
def FieldType.isMessage : FieldType → Bool
  | .message _ => true
  | _ => false

theorem MessageType.fields_ascending (type : MessageType) :
    type.fields.Pairwise fun a b => a.tag < b.tag := by
  cases type <;> decide

/-- The tags fit into keys, pieces are of numbers, and no message is required. -/
theorem MessageType.fields_valid (type : MessageType) :
    ∀ field ∈ type.fields, (1 ≤ field.tag ∧ field.tag < 2 ^ 29) ∧
      (field.occurrence = .packed → field.type = .int32) ∧
      (field.occurrence = .required → field.type.isMessage = false) := by
  cases type <;> decide

namespace MessageType

variable {type : MessageType} {field : Field} {tag : Nat}

theorem mem_fields_of_field? (h : type.field? tag = some field) :
    field ∈ type.fields ∧ field.tag = tag := by
  have htag := List.find?_some h
  exact ⟨List.mem_of_find?_eq_some h, beq_iff_eq.1 htag⟩

/-- A known field is found by its tag. -/
theorem field?_of_mem (h : field ∈ type.fields) : type.field? field.tag = some field := by
  have hfind : (type.field? field.tag).isSome :=
    List.find?_isSome.2 ⟨field, h, beq_self_eq_true _⟩
  obtain ⟨other, hother⟩ := Option.isSome_iff_exists.1 hfind
  obtain ⟨hmem, htag⟩ := mem_fields_of_field? hother
  have htags : (type.fields.map Field.tag).Nodup :=
    List.pairwise_map.2 (type.fields_ascending.imp fun hlt => Nat.ne_of_lt hlt)
  rw [hother, List.inj_on_of_nodup_map htags hmem h htag]

theorem validTag (h : type.field? tag = some field) : ValidTag tag := by
  obtain ⟨hmem, rfl⟩ := mem_fields_of_field? h
  exact (type.fields_valid field hmem).1

theorem type_of_packed (h : type.field? tag = some field) (hpacked : field.occurrence = .packed) :
    field.type = .int32 :=
  (type.fields_valid field (mem_fields_of_field? h).1).2.1 hpacked

theorem isMessage_of_required (h : type.field? tag = some field)
    (hrequired : field.occurrence = .required) : field.type.isMessage = false :=
  (type.fields_valid field (mem_fields_of_field? h).1).2.2 hrequired

/-- The entries of a blank record are those of the required fields. -/
theorem mem_blank {entry : Nat × Value} (h : entry ∈ type.blank) :
    ∃ field, type.field? entry.1 = some field ∧ field.occurrence = .required ∧
      entry.2 = field.type.default := by
  obtain ⟨field, hmem, hentry⟩ := List.mem_filterMap.1 h
  split at hentry
  · rename_i hrequired
    cases hentry
    exact ⟨field, field?_of_mem hmem, hrequired, rfl⟩
  · cases hentry

end MessageType

/-! ## Conforming records -/

/-- Whether a value is of a type. The first argument says which records can be messages. -/
def FieldType.Admits (inner : MessageType → Record → Prop) : FieldType → Value → Prop
  | .int32, .int32 _ => True
  | .bool, .bool _ => True
  | .word, .word _ => True
  | .double, .double _ => True
  | .text, .text _ => True
  | .octets, .octets _ => True
  | .message type, .record fields => inner type fields
  | _, _ => False

/-- Whether a field can have a value. -/
def Field.Admits (inner : MessageType → Record → Prop) (field : Field) (value : Value) : Prop :=
  if field.occurrence = .packed then ∃ ns, ns ≠ [] ∧ value = .packed ns
  else field.type.Admits inner value

section

variable {inner : MessageType → Record → Prop} {field : Field} {value : Value}

theorem Field.admits_packed (hpacked : field.occurrence = .packed) {ns : List Int32}
    (hns : ns ≠ []) : field.Admits inner (.packed ns) := by
  rw [Field.Admits, if_pos hpacked]
  exact ⟨ns, hns, rfl⟩

theorem Field.admits_iff (hpiece : field.occurrence ≠ .packed) :
    field.Admits inner value ↔ field.type.Admits inner value := by
  rw [Field.Admits, if_neg hpiece]

/-- What a content stands for is of the type. -/
theorem FieldType.admits_of_plain? {type : FieldType} {content : Content}
    (h : type.plain? content = some value) : type.Admits inner value := by
  unfold FieldType.plain? at h
  split at h
  · cases h; exact True.intro
  · cases h; exact True.intro
  · cases h; exact True.intro
  · cases h; exact True.intro
  · obtain ⟨s, -, rfl⟩ := Option.map_eq_some_iff.1 h
    exact True.intro
  · cases h; exact True.intro
  · cases h

end

/-- Whether a field with a tag may occur more than once in a record. -/
def MessageType.Repeats (type : MessageType) (tag : Nat) : Prop :=
  ∃ field, type.field? tag = some field ∧ field.occurrence = .repeated

/-- Whether an entry of a record can stand before another. -/
def MessageType.Before (type : MessageType) (entry later : Nat × Value) : Prop :=
  entry.1 < later.1 ∨ entry.1 = later.1 ∧ type.Repeats entry.1

/-- Whether a record is one of a kind of message. The first argument says which records can be
messages within it. -/
structure WellFormed (inner : MessageType → Record → Prop) (type : MessageType)
    (record : Record) : Prop where
  ascending : record.Pairwise type.Before
  admitted : ∀ entry ∈ record, ∃ field, type.field? entry.1 = some field ∧
    field.Admits inner entry.2
  required : ∀ field ∈ type.fields, field.occurrence = .required →
    field.tag ∈ record.map Prod.fst

/-- Whether a record is one of a kind of message, nested no deeper than a budget. -/
def Conforms : (budget : Nat) → MessageType → Record → Prop
  | 0 => WellFormed fun _ _ => False
  | budget + 1 => WellFormed (Conforms budget)

/-! ## Adding to a record -/

namespace Record

variable {tag : Nat} {value : Value} {record first rest : Record}

theorem mem_insert {entry : Nat × Value} :
    entry ∈ record.insert tag value ↔ entry = (tag, value) ∨ entry ∈ record := by
  induction record with
  | nil => exact List.mem_singleton.trans (or_iff_left List.not_mem_nil).symm
  | cons field rest ih =>
    rw [insert]
    split
    · rw [List.mem_cons, ih, List.mem_cons, or_left_comm]
    · exact List.mem_cons

/-- A value goes behind lower tags and its own. -/
theorem insert_behind (hfirst : ∀ entry ∈ first, entry.1 ≤ tag) (rest : Record) :
    insert tag value (first ++ rest) = first ++ insert tag value rest := by
  induction first with
  | nil => rfl
  | cons field first ih =>
    rw [List.cons_append, insert, if_pos (hfirst field List.mem_cons_self),
      ih fun entry hmem => hfirst entry (List.mem_cons_of_mem _ hmem)]
    rfl

/-- A value goes behind lower tags and its own, and before higher ones. -/
theorem insert_append (hfirst : ∀ entry ∈ first, entry.1 ≤ tag)
    (hrest : ∀ entry ∈ rest, tag < entry.1) :
    insert tag value (first ++ rest) = first ++ (tag, value) :: rest := by
  rw [insert_behind hfirst]
  cases rest with
  | nil => rfl
  | cons field rest =>
    have hhigher := hrest field List.mem_cons_self
    rw [insert, if_neg (by omega)]

theorem mem_put {entry : Nat × Value} :
    entry ∈ record.put tag value ↔ entry = (tag, value) ∨ entry ∈ record ∧ entry.1 ≠ tag := by
  rw [put, mem_insert, List.mem_filter, bne_iff_ne]

end Record

namespace WellFormed

variable {inner : MessageType → Record → Prop} {type : MessageType} {field : Field} {tag : Nat}
  {value : Value} {record : Record}

/-- The order of a record bears a new value, unless it is the second where one may be. -/
theorem ascending_insert (h : record.Pairwise type.Before)
    (hnew : type.Repeats tag ∨ ∀ entry ∈ record, entry.1 ≠ tag) :
    (record.insert tag value).Pairwise type.Before := by
  induction record with
  | nil => exact List.pairwise_singleton _ _
  | cons first rest ih =>
    obtain ⟨hfirst, hrest⟩ := List.pairwise_cons.1 h
    have hbefore : first.1 ≤ tag → type.Before first (tag, value) := by
      intro hle
      rcases Nat.lt_or_eq_of_le hle with hlt | heq
      · exact .inl hlt
      · refine .inr ⟨heq, ?_⟩
        rcases hnew with hrepeats | hother
        · exact heq ▸ hrepeats
        · exact absurd heq (hother first List.mem_cons_self)
    rw [Record.insert]
    split
    · rename_i hle
      refine List.pairwise_cons.2 ⟨fun entry hmem => ?_, ih hrest ?_⟩
      · rcases Record.mem_insert.1 hmem with rfl | hmem
        · exact hbefore hle
        · exact hfirst entry hmem
      · exact hnew.imp_right fun hother entry hmem => hother entry (List.mem_cons_of_mem _ hmem)
    · rename_i hgt
      refine List.pairwise_cons.2 ⟨fun entry hmem => .inl ?_, h⟩
      rcases List.mem_cons.1 hmem with rfl | hmem
      · exact Nat.lt_of_not_le hgt
      · rcases hfirst entry hmem with hlt | ⟨heq, -⟩
        · exact Nat.lt_trans (Nat.lt_of_not_le hgt) hlt
        · exact heq ▸ Nat.lt_of_not_le hgt

/-- A value is added to a field that may repeat. -/
theorem insert (h : WellFormed inner type record) (hfield : type.field? tag = some field)
    (hrepeated : field.occurrence = .repeated) (hadmits : field.Admits inner value) :
    WellFormed inner type (record.insert tag value) where
  ascending := ascending_insert h.ascending (.inl ⟨field, hfield, hrepeated⟩)
  admitted := fun entry hmem => by
    rcases Record.mem_insert.1 hmem with rfl | hmem
    · exact ⟨field, hfield, hadmits⟩
    · exact h.admitted entry hmem
  required := fun other hmem hrequired => by
    obtain ⟨entry, hentry, htag⟩ := List.mem_map.1 (h.required other hmem hrequired)
    exact List.mem_map.2 ⟨entry, Record.mem_insert.2 (.inr hentry), htag⟩

/-- A value is made the only one of its field. -/
theorem put (h : WellFormed inner type record) (hfield : type.field? tag = some field)
    (hadmits : field.Admits inner value) : WellFormed inner type (record.put tag value) where
  ascending := by
    refine ascending_insert (h.ascending.filter _) (.inr fun entry hmem => ?_)
    exact bne_iff_ne.1 (List.mem_filter.1 hmem).2
  admitted := fun entry hmem => by
    rcases Record.mem_put.1 hmem with rfl | ⟨hmem, -⟩
    · exact ⟨field, hfield, hadmits⟩
    · exact h.admitted entry hmem
  required := fun other hmem hrequired => by
    obtain ⟨entry, hentry, htag⟩ := List.mem_map.1 (h.required other hmem hrequired)
    by_cases hsame : entry.1 = tag
    · exact List.mem_map.2 ⟨(tag, value), Record.mem_put.2 (.inl rfl), hsame.symm.trans htag⟩
    · exact List.mem_map.2 ⟨entry, Record.mem_put.2 (.inr ⟨hentry, hsame⟩), htag⟩

/-- A blank record is well formed. -/
theorem blank (inner : MessageType → Record → Prop) (type : MessageType) :
    WellFormed inner type type.blank where
  ascending := by
    refine List.pairwise_filterMap.2 (type.fields_ascending.imp ?_)
    intro a b hlt entry hentry other hother
    split at hentry
    · split at hother
      · cases hentry
        cases hother
        exact .inl hlt
      · cases hother
    · cases hentry
  admitted := fun entry hmem => by
    obtain ⟨field, hfield, hrequired, hvalue⟩ := MessageType.mem_blank hmem
    have hplain := MessageType.isMessage_of_required hfield hrequired
    refine ⟨field, hfield, ?_⟩
    rw [hvalue, Field.admits_iff (by rw [hrequired]; decide)]
    cases htype : field.type with
    | message inner => rw [htype] at hplain; cases hplain
    | _ => exact True.intro
  required := fun field hmem hrequired =>
    List.mem_map.2 ⟨(field.tag, field.type.default),
      List.mem_filterMap.2 ⟨field, hmem, if_pos hrequired⟩, rfl⟩

/-- Numbers are added to a piece. -/
theorem extend (h : WellFormed inner type record) (hfield : type.field? tag = some field)
    (hpacked : field.occurrence = .packed) (ns : List Int32) :
    WellFormed inner type (record.extend tag ns) := by
  unfold Record.extend
  split
  · exact h
  · rename_i hall
    exact h.put hfield (Field.admits_packed hpacked hall)

/-- Numbers are added one by one. -/
theorem insertAll (h : WellFormed inner type record) (hfield : type.field? tag = some field)
    (hrepeated : field.occurrence = .repeated) (htype : field.type = .int32) (ns : List Int32) :
    WellFormed inner type (ns.foldl (fun record n => record.insert tag (.int32 n)) record) := by
  induction ns generalizing record with
  | nil => exact h
  | cons n rest ih =>
    refine ih (h.insert hfield hrepeated ?_)
    rw [Field.admits_iff (by rw [hrepeated]; decide), htype]
    exact True.intro

/-- A value that is no message is added. -/
theorem add (h : WellFormed inner type record) (hfield : type.field? tag = some field)
    {content : Content} (hvalue : field.type.plain? content = some value) :
    WellFormed inner type (field.add value record) := by
  have hadmits (hpiece : field.occurrence ≠ .packed) : field.Admits inner value :=
    (Field.admits_iff hpiece).2 (FieldType.admits_of_plain? hvalue)
  obtain ⟨-, rfl⟩ := MessageType.mem_fields_of_field? hfield
  unfold Field.add
  split
  · rename_i n hpacked
    exact h.extend hfield hpacked [n]
  · exact h
  · rename_i hrepeated
    exact h.insert hfield hrepeated (hadmits (by rw [hrepeated]; decide))
  · rename_i hpiece _ _
    exact h.put hfield (hadmits hpiece)

end WellFormed

/-! ## Reading -/

/-- What must be known of a reader of messages: what it makes of a message that conforms, or of a
blank one, conforms. -/
def KeepsConforming (inner : MessageType → Record → Prop)
    (enter : MessageType → Record → List UInt8 → Option Record) : Prop :=
  ∀ type start bytes out, start = type.blank ∨ inner type start →
    enter type start bytes = some out → inner type out

namespace WellFormed

variable {inner : MessageType → Record → Prop} {type : MessageType} {field : Field} {tag : Nat}
  {record out : Record} {enter : MessageType → Record → List UInt8 → Option Record}

/-- The message that a field holds conforms. -/
theorem inner_of_record? (h : WellFormed inner type record) (hfield : type.field? tag = some field)
    {within : MessageType} (htype : field.type = .message within) {fields : Record}
    (hfields : record.record? tag = some fields) : inner within fields := by
  have hmem : (tag, Value.record fields) ∈ record := by
    unfold Record.record? at hfields
    split at hfields
    · rename_i fields' hlookup
      cases hfields
      obtain ⟨before, after, rfl, -⟩ := List.lookup_eq_some_iff.1 hlookup
      exact List.mem_append_right _ List.mem_cons_self
    · cases hfields
  obtain ⟨other, hother, hadmits⟩ := h.admitted _ hmem
  rw [hfield] at hother
  cases hother
  have hpiece : field.occurrence ≠ .packed := fun hpacked => by
    rw [MessageType.type_of_packed hfield hpacked] at htype
    cases htype
  rw [Field.admits_iff hpiece, htype] at hadmits
  exact hadmits

/-- So do the messages of a field that may repeat. -/
theorem inner_of_mem_records (h : WellFormed inner type record) (tag : Nat)
    (hfield : type.field? tag = some field) {within : MessageType}
    (htype : field.type = .message within) {fields : Record}
    (hmem : fields ∈ record.records tag) : inner within fields := by
  obtain ⟨value, hvalue, heq⟩ := List.mem_filterMap.1 hmem
  obtain ⟨entry, hentry, rfl⟩ := List.mem_map.1 hvalue
  obtain ⟨hentry, htag⟩ := List.mem_filter.1 hentry
  have hrecord : entry.2 = .record fields := by
    split at heq
    · rename_i fields' hfields
      cases heq
      exact hfields
    · cases heq
  obtain ⟨other, hother, hadmits⟩ := h.admitted entry hentry
  rw [beq_iff_eq.1 htag, hfield] at hother
  cases hother
  have hpiece : field.occurrence ≠ .packed := fun hpacked => by
    rw [MessageType.type_of_packed hfield hpacked] at htype
    cases htype
  rw [Field.admits_iff hpiece, htype, hrecord] at hadmits
  exact hadmits

/-- Taking a content into a record leaves it well formed. -/
theorem take (henter : KeepsConforming inner enter) (h : WellFormed inner type record)
    (hfield : type.field? tag = some field) {content : Content}
    (hout : field.take enter content record = some out) : WellFormed inner type out := by
  obtain ⟨-, rfl⟩ := MessageType.mem_fields_of_field? hfield
  unfold Field.take at hout
  split at hout
  · rename_i within bytes htype
    have hadmits {fields : Record} (hinner : inner within fields) :
        field.Admits inner (.record fields) := by
      have hpiece : field.occurrence ≠ .packed := fun hpacked => by
        rw [MessageType.type_of_packed hfield hpacked] at htype
        cases htype
      rw [Field.admits_iff hpiece, htype]
      exact hinner
    split at hout
    · rename_i hrepeated
      obtain ⟨fields, hread, rfl⟩ := Option.map_eq_some_iff.1 hout
      exact h.insert hfield hrepeated (hadmits (henter _ _ _ _ (.inl rfl) hread))
    · obtain ⟨fields, hread, rfl⟩ := Option.map_eq_some_iff.1 hout
      refine h.put hfield (hadmits (henter _ _ _ _ ?_ hread))
      cases hstart : record.record? field.tag with
      | none => exact .inl rfl
      | some start => exact .inr (h.inner_of_record? hfield htype hstart)
  · rename_i bytes htype
    split at hout
    · rename_i hmay
      obtain ⟨ns, -, rfl⟩ := Option.map_eq_some_iff.1 hout
      unfold Field.addAll
      split
      · rename_i hpacked
        exact h.extend hfield hpacked _
      · rename_i hpiece
        have hrepeated : field.occurrence = .repeated := by
          simpa [Field.mayRepeat, hpiece] using hmay
        exact h.insertAll hfield hrepeated htype _
    · cases hout
  · obtain ⟨value, hvalue, rfl⟩ := Option.map_eq_some_iff.1 hout
    exact h.add hfield hvalue

end WellFormed

/-- Skipping does not change the record. -/
theorem Progress.record_of_skip {budget : Nat} {token : Token} {progress next : Progress}
    (h : progress.skip budget token = some next) : next.record = progress.record := by
  unfold Progress.skip at h
  split at h
  · cases h
  · split at h
    · cases h; rfl
    · cases h
  · split at h
    · split at h
      · cases h; rfl
      · cases h; rfl
    · cases h

section

variable {inner : MessageType → Record → Prop} {type : MessageType} {budget : Nat}
  {enter : MessageType → Record → List UInt8 → Option Record}

theorem Progress.wellFormed_of_step (henter : KeepsConforming inner enter)
    {progress next : Progress} {token : Token} (h : WellFormed inner type progress.record)
    (hstep : progress.step enter budget type token = some next) :
    WellFormed inner type next.record := by
  unfold Progress.step at hstep
  split at hstep
  · split at hstep
    · rename_i field hfield
      obtain ⟨record, htake, rfl⟩ := Option.map_eq_some_iff.1 hstep
      exact h.take henter hfield htake
    · rw [Progress.record_of_skip hstep]
      exact h
  · rw [Progress.record_of_skip hstep]
    exact h

theorem Progress.wellFormed_of_foldlM (henter : KeepsConforming inner enter) (tokens : List Token)
    {progress last : Progress} (h : WellFormed inner type progress.record)
    (hfold : tokens.foldlM (Progress.step enter budget type) progress = some last) :
    WellFormed inner type last.record := by
  induction tokens generalizing progress with
  | nil =>
    cases hfold
    exact h
  | cons token rest ih =>
    obtain ⟨next, hstep, hrest⟩ := Option.bind_eq_some_iff.1 hfold
    exact ih (Progress.wellFormed_of_step henter h hstep) hrest

/-- What is read is well formed. -/
theorem wellFormed_of_readTokens (henter : KeepsConforming inner enter) {start out : Record}
    {bytes : List UInt8} (h : WellFormed inner type start)
    (hread : readTokens enter budget type start bytes = some out) : WellFormed inner type out := by
  obtain ⟨tokens, -, hread⟩ := Option.bind_eq_some_iff.1 hread
  obtain ⟨last, hfold, hlast⟩ := Option.bind_eq_some_iff.1 hread
  split at hlast
  · cases hlast
    exact Progress.wellFormed_of_foldlM henter tokens h hfold
  · cases hlast

end

theorem conforms_blank (budget : Nat) (type : MessageType) : Conforms budget type type.blank := by
  cases budget <;> exact WellFormed.blank _ type

/-- What is read within a budget conforms within it. -/
theorem keepsConforming_readWithin (budget : Nat) :
    KeepsConforming (Conforms budget) (readWithin budget) := by
  induction budget with
  | zero =>
    intro type start bytes out hstart hread
    have hnone : KeepsConforming (fun _ _ => False) fun _ _ _ => none :=
      fun _ _ _ _ _ h => by cases h
    refine wellFormed_of_readTokens hnone ?_ hread
    rcases hstart with rfl | hstart
    · exact conforms_blank 0 type
    · exact hstart
  | succ budget ih =>
    intro type start bytes out hstart hread
    refine wellFormed_of_readTokens ih ?_ hread
    rcases hstart with rfl | hstart
    · exact conforms_blank (budget + 1) type
    · exact hstart

/-- What is read conforms. -/
theorem conforms_of_read? {type : MessageType} {bytes : List UInt8} {record : Record}
    (h : read? type bytes = some record) : Conforms nestingLimit type record :=
  keepsConforming_readWithin nestingLimit type _ bytes record (.inl rfl) h

end SchemaOptions.Wire
