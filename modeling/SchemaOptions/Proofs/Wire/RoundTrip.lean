import SchemaOptions.Proofs.Wire.Conforms

/-!
# Reading back what was written

The bytes of a record that conforms are read back as the record (`read?_write`). The reader
starts with a blank record and takes the entries in their order. Once it has taken some of them, it
holds these and the blank entries of the required fields that are still to come (`soFar`); every
entry goes between the two, and in the end no blank entry is left.
-/

namespace SchemaOptions.Wire

/-- What must be known of a reader of messages: it reads back what conforms. -/
def ReadsBack (inner : MessageType → Record → Prop)
    (enter : MessageType → Record → List UInt8 → Option Record) : Prop :=
  ∀ type fields, inner type fields → (Record.write fields).length < 2 ^ 64 →
    enter type type.blank (Record.write fields) = some fields

/-! ## The record read so far -/

/-- The blank entries of the required fields that are not among some entries. -/
def MessageType.remaining (type : MessageType) (first : Record) : Record :=
  type.blank.filter fun entry => !(first.map Prod.fst).contains entry.1

/-- The record that a reader holds once it has taken some entries. -/
def MessageType.soFar (type : MessageType) (first : Record) : Record :=
  first ++ type.remaining first

namespace MessageType

variable {inner : MessageType → Record → Prop} {type : MessageType} {field : Field} {tag : Nat}
  {value : Value} {first rest : Record}

theorem soFar_nil (type : MessageType) : type.soFar [] = type.blank :=
  List.filter_eq_self.2 fun _ _ => rfl

theorem mem_remaining {entry : Nat × Value} :
    entry ∈ type.remaining first ↔ entry ∈ type.blank ∧ entry.1 ∉ first.map Prod.fst := by
  rw [remaining, List.mem_filter, Bool.not_eq_true', ← Bool.not_eq_true, List.contains_iff_mem]

theorem remaining_concat (first : Record) (tag : Nat) (value : Value) :
    type.remaining (first ++ [(tag, value)]) =
      (type.remaining first).filter fun entry => entry.1 != tag := by
  simp only [remaining, List.filter_filter, List.map_append, List.map_cons, List.map_nil]
  apply List.filter_congr
  intro entry _
  rw [Bool.eq_iff_iff]
  simp only [Bool.not_eq_true', Bool.and_eq_true, bne_iff_ne, ← Bool.not_eq_true,
    List.contains_iff_mem, List.mem_append, List.mem_singleton, not_or]
  exact and_comm

/-- Once all entries were taken, no blank one remains. -/
theorem soFar_of_wellFormed (h : WellFormed inner type first) : type.soFar first = first := by
  have hnone : type.remaining first = [] := by
    rw [List.eq_nil_iff_forall_not_mem]
    intro entry hmem
    obtain ⟨hblank, hnew⟩ := mem_remaining.1 hmem
    obtain ⟨field, hfield, hrequired, -⟩ := mem_blank hblank
    obtain ⟨hknown, htag⟩ := mem_fields_of_field? hfield
    exact hnew (htag ▸ h.required field hknown hrequired)
  rw [soFar, hnone, List.append_nil]

/-- The entries before one have its tag or a lower one. -/
theorem le_of_mem_first (h : WellFormed inner type (first ++ (tag, value) :: rest)) :
    ∀ entry ∈ first, entry.1 ≤ tag := by
  intro entry hmem
  rcases (List.pairwise_append.1 h.ascending).2.2 entry hmem (tag, value) List.mem_cons_self with
    hlt | ⟨heq, -⟩
  · exact Nat.le_of_lt hlt
  · exact Nat.le_of_eq heq

/-- If the field may not repeat, they have a lower one. -/
theorem ne_of_mem_first (h : WellFormed inner type (first ++ (tag, value) :: rest))
    (hfield : type.field? tag = some field) (honce : field.occurrence ≠ .repeated) :
    ∀ entry ∈ first, entry.1 ≠ tag := by
  intro entry hmem heq
  rcases (List.pairwise_append.1 h.ascending).2.2 entry hmem (tag, value) List.mem_cons_self with
    hlt | ⟨-, other, hother, hrepeated⟩
  · exact absurd heq (Nat.ne_of_lt hlt)
  · rw [heq, hfield] at hother
    cases hother
    exact honce hrepeated

/-- The blank entries that remain have higher tags, because their fields are still to come. -/
theorem lt_of_mem_remaining (h : WellFormed inner type (first ++ (tag, value) :: rest)) :
    ∀ entry ∈ type.remaining (first ++ [(tag, value)]), tag < entry.1 := by
  intro entry hmem
  obtain ⟨hblank, hnew⟩ := mem_remaining.1 hmem
  obtain ⟨field, hfield, hrequired, -⟩ := mem_blank hblank
  obtain ⟨hknown, htag⟩ := mem_fields_of_field? hfield
  obtain ⟨later, hlater, heq⟩ := List.mem_map.1 (h.required field hknown hrequired)
  rw [htag] at heq
  rw [List.append_cons] at hlater
  rcases List.mem_append.1 hlater with htaken | hrest
  · exact absurd (heq ▸ List.mem_map_of_mem htaken) hnew
  · rcases List.rel_of_pairwise_cons (List.pairwise_append.1 h.ascending).2.1 hrest with
      hlt | ⟨hsame, -⟩
    · exact heq ▸ hlt
    · refine absurd ?_ hnew
      rw [← heq, ← hsame, List.map_append]
      exact List.mem_append_right _ List.mem_cons_self

/-- A value of a field that may repeat goes behind the entries taken. -/
theorem insert_soFar (h : WellFormed inner type (first ++ (tag, value) :: rest))
    (hfield : type.field? tag = some field) (hrepeated : field.occurrence = .repeated) :
    (type.soFar first).insert tag value = type.soFar (first ++ [(tag, value)]) := by
  have hsame : type.remaining (first ++ [(tag, value)]) = type.remaining first := by
    rw [remaining_concat]
    rw [List.filter_eq_self]
    intro entry hmem
    rw [bne_iff_ne]
    intro heq
    obtain ⟨other, hother, hrequired, -⟩ := mem_blank (mem_remaining.1 hmem).1
    rw [heq, hfield] at hother
    cases hother
    rw [hrepeated] at hrequired
    cases hrequired
  rw [soFar, soFar, hsame, Record.insert_append (le_of_mem_first h) (hsame ▸ lt_of_mem_remaining h),
    List.append_cons]

/-- A value of a field that may not repeat goes there too, in place of the blank one. -/
theorem put_soFar (h : WellFormed inner type (first ++ (tag, value) :: rest))
    (hfield : type.field? tag = some field) (honce : field.occurrence ≠ .repeated) :
    (type.soFar first).put tag value = type.soFar (first ++ [(tag, value)]) := by
  have hkeep : first.filter (fun entry => entry.1 != tag) = first :=
    List.filter_eq_self.2 fun entry hmem => bne_iff_ne.2 (ne_of_mem_first h hfield honce entry hmem)
  rw [soFar, soFar, Record.put, List.filter_append, hkeep, ← remaining_concat first tag value,
    Record.insert_append (le_of_mem_first h) (lt_of_mem_remaining h), List.append_cons]

/-- A field that is neither required nor may repeat has no entry before its own. -/
theorem lookup_soFar (h : WellFormed inner type (first ++ (tag, value) :: rest))
    (hfield : type.field? tag = some field) (honce : field.occurrence ≠ .repeated)
    (hrequired : field.occurrence ≠ .required) : (type.soFar first).lookup tag = none := by
  rw [List.lookup_eq_none_iff]
  intro entry hmem
  rw [bne_iff_ne]
  intro heq
  rcases List.mem_append.1 hmem with htaken | hblank
  · exact ne_of_mem_first h hfield honce entry htaken heq.symm
  · obtain ⟨other, hother, hneeded, -⟩ := mem_blank (mem_remaining.1 hblank).1
    rw [← heq, hfield] at hother
    cases hother
    exact hrequired hneeded

end MessageType

/-! ## One entry -/

/-- The content of a value that is no message stands for the value. -/
theorem FieldType.plain?_content {inner : MessageType → Record → Prop} {type : FieldType}
    {value : Value} (h : type.Admits inner value) (hplain : type.isMessage = false) :
    type.plain? value.content = some value := by
  cases type <;> cases value <;> first | exact absurd h id | skip
  · exact congrArg (some ∘ Value.int32) (int32Of_widened _)
  · rename_i b
    cases b <;> rfl
  · exact congrArg (some ∘ Value.word) UInt64.ofNat_toNat
  · rfl
  · rename_i s
    simp only [FieldType.plain?, Value.content, textOf?_toUTF8, Option.map_some]
  · rfl
  · cases hplain

/-- A value that is no message is added as its content says. -/
theorem Field.take_of_plain {enter : MessageType → Record → List UInt8 → Option Record}
    {field : Field} {content : Content} {value : Value} (record : Record)
    (hplain : field.type.isMessage = false) (hvalue : field.type.plain? content = some value) :
    field.take enter content record = some (field.add value record) := by
  unfold Field.take
  split
  · rename_i htype
    rw [htype] at hplain
    cases hplain
  · rename_i htype
    rw [htype] at hvalue
    cases hvalue
  · rw [hvalue]
    rfl

section

variable {inner : MessageType → Record → Prop} {type : MessageType} {field : Field} {tag : Nat}
  {value : Value} {first rest : Record}
  {enter : MessageType → Record → List UInt8 → Option Record}

/-- A piece is taken as it was written. -/
theorem take_packed (h : WellFormed inner type (first ++ (tag, value) :: rest))
    (hfield : type.field? tag = some field) (hpacked : field.occurrence = .packed)
    (hadmits : field.Admits inner value) :
    field.take enter value.content (type.soFar first) =
      some (type.soFar (first ++ [(tag, value)])) := by
  obtain ⟨-, rfl⟩ := MessageType.mem_fields_of_field? hfield
  rw [Field.Admits, if_pos hpacked] at hadmits
  obtain ⟨ns, hns, rfl⟩ := hadmits
  have honce : field.occurrence ≠ .repeated := by rw [hpacked]; decide
  have hrequired : field.occurrence ≠ .required := by rw [hpacked]; decide
  have hmay : field.mayRepeat = true := by simp [Field.mayRepeat, hpacked]
  have hnumbers : (ns.map widened).map int32Of = ns := by
    rw [List.map_map]
    exact (List.map_congr_left fun n _ => int32Of_widened n).trans (List.map_id ns)
  have hnone : Record.packed field.tag (type.soFar first) = [] := by
    rw [Record.packed, MessageType.lookup_soFar h hfield honce hrequired]
  have hextend : Record.extend field.tag ns (type.soFar first) =
      (type.soFar first).put field.tag (.packed ns) := by
    rw [Record.extend, hnone, List.nil_append]
    cases ns with
    | nil => exact absurd rfl hns
    | cons => rfl
  simp only [Field.take, MessageType.type_of_packed hfield hpacked, Value.content, hmay, if_true,
    readAll_int32Bytes, Option.map_some, hnumbers, Field.addAll, if_pos hpacked, hextend,
    MessageType.put_soFar h hfield honce]

/-- A message is taken as it was written. -/
theorem take_message (hreads : ReadsBack inner enter)
    (h : WellFormed inner type (first ++ (tag, value) :: rest))
    (hfield : type.field? tag = some field) {within : MessageType}
    (htype : field.type = .message within) {fields : Record} (hvalue : value = .record fields)
    (hinner : inner within fields) (hsize : (Record.write fields).length < 2 ^ 64) :
    field.take enter value.content (type.soFar first) =
      some (type.soFar (first ++ [(tag, value)])) := by
  obtain ⟨-, rfl⟩ := MessageType.mem_fields_of_field? hfield
  subst hvalue
  have hread := hreads within fields hinner hsize
  by_cases hrepeated : field.occurrence = .repeated
  · simp only [Field.take, htype, Value.content, if_pos hrepeated, hread, Option.map_some,
      MessageType.insert_soFar h hfield hrepeated]
  · have hrequired : field.occurrence ≠ .required := fun hrequired => by
      have hplain := MessageType.isMessage_of_required hfield hrequired
      rw [htype] at hplain
      cases hplain
    have hnone : Record.record? field.tag (type.soFar first) = none := by
      rw [Record.record?, MessageType.lookup_soFar h hfield hrepeated hrequired]
    simp only [Field.take, htype, Value.content, if_neg hrepeated, hnone, Option.getD_none, hread,
      Option.map_some, MessageType.put_soFar h hfield hrepeated]

/-- An entry is taken as it was written. -/
theorem take_soFar (hreads : ReadsBack inner enter)
    (h : WellFormed inner type (first ++ (tag, value) :: rest))
    (hfield : type.field? tag = some field) (hadmits : field.Admits inner value)
    (hsize : (value.write tag).length < 2 ^ 64) :
    field.take enter value.content (type.soFar first) =
      some (type.soFar (first ++ [(tag, value)])) := by
  by_cases hpacked : field.occurrence = .packed
  · exact take_packed h hfield hpacked hadmits
  · have hvalue := (Field.admits_iff hpacked).1 hadmits
    cases hplain : field.type.isMessage with
    | true =>
      cases htype : field.type <;> rw [htype] at hplain hvalue <;> try cases hplain
      rename_i within
      cases value <;> try exact absurd hvalue id
      rename_i fields
      rw [Value.write] at hsize
      exact take_message hreads h hfield htype rfl hvalue (length_le_of_counted hsize)
    | false =>
      rw [Field.take_of_plain _ hplain (FieldType.plain?_content hvalue hplain)]
      obtain ⟨-, rfl⟩ := MessageType.mem_fields_of_field? hfield
      refine congrArg some ?_
      unfold Field.add
      split
      · rename_i hpiece
        exact absurd hpiece hpacked
      · rename_i hpiece _
        exact absurd hpiece hpacked
      · rename_i hrepeated
        exact MessageType.insert_soFar h hfield hrepeated
      · rename_i honce _
        exact MessageType.put_soFar h hfield honce

/-! ## All entries -/

/-- The tokens of the entries still to come are taken one by one. -/
theorem foldlM_tokens (hreads : ReadsBack inner enter) (budget : Nat)
    (h : WellFormed inner type (first ++ rest)) (hsize : (Record.write rest).length < 2 ^ 64) :
    (Record.tokens rest).foldlM (Progress.step enter budget type) ⟨[], type.soFar first⟩ =
      some ⟨[], first ++ rest⟩ := by
  induction rest generalizing first with
  | nil =>
    rw [List.append_nil] at h ⊢
    rw [MessageType.soFar_of_wellFormed h]
    rfl
  | cons entry rest ih =>
    obtain ⟨tag, value⟩ := entry
    obtain ⟨field, hfield, hadmits⟩ :=
      h.admitted (tag, value) (List.mem_append_right _ List.mem_cons_self)
    rw [Record.write, List.length_append] at hsize
    have htake := take_soFar hreads h hfield hadmits (by omega)
    have hstep : Progress.step enter budget type ⟨[], type.soFar first⟩ ⟨tag, value.content⟩ =
        some ⟨[], type.soFar (first ++ [(tag, value)])⟩ := by
      simp only [Progress.step, List.isEmpty_nil, if_true, hfield, htake, Option.map_some]
    rw [List.append_cons] at h ⊢
    show (Progress.step enter budget type _ _ >>= _) = _
    rw [hstep]
    exact ih h (by omega)

/-- A record that is well formed is read back from its bytes. -/
theorem readTokens_write (hreads : ReadsBack inner enter) (budget : Nat) {record : Record}
    (h : WellFormed inner type record) (hsize : (Record.write record).length < 2 ^ 64) :
    readTokens enter budget type type.blank (Record.write record) = some record := by
  have htags : ∀ entry ∈ record, ValidTag entry.1 := fun entry hmem => by
    obtain ⟨field, hfield, -⟩ := h.admitted entry hmem
    exact MessageType.validTag hfield
  have hfold : (Record.tokens record).foldlM (Progress.step enter budget type)
      ⟨[], type.soFar []⟩ = some ⟨[], record⟩ := foldlM_tokens hreads budget h hsize
  rw [MessageType.soFar_nil] at hfold
  rw [readTokens, Token.readAll?_write htags hsize]
  show (Record.tokens record).foldlM (Progress.step enter budget type) _ >>= _ = _
  rw [hfold]
  rfl

end

/-- A record that conforms is read back from its bytes. -/
theorem readsBack_readWithin (budget : Nat) : ReadsBack (Conforms budget) (readWithin budget) := by
  induction budget with
  | zero =>
    have hnone : ReadsBack (fun _ _ => False) fun _ _ _ => none := fun _ _ h => h.elim
    intro type record h hsize
    exact readTokens_write hnone 0 h hsize
  | succ budget ih => exact fun _ _ h hsize => readTokens_write ih (budget + 1) h hsize

/-- What conforms is read back. -/
theorem read?_write {type : MessageType} {record : Record} (h : Conforms nestingLimit type record)
    (hsize : (Record.write record).length < 2 ^ 64) :
    read? type (Record.write record) = some record :=
  readsBack_readWithin nestingLimit type record h hsize

end SchemaOptions.Wire
