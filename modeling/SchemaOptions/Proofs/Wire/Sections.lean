import SchemaOptions.Proofs.Wire.Conforms

/-!
# Records told field by field

A record that is put together from the fields of a structure is a row of sections, each a tag with
its values. If the tags ascend, a field is looked up in its own section (`Record.lookup_ofSections`,
`Record.all_ofSections`), and the record is well formed if every section is
(`wellFormed_ofSections`).
-/

namespace SchemaOptions.Wire

namespace Record

/-- The record of sections. -/
def ofSections (sections : List (Nat × List Value)) : Record :=
  sections.flatMap fun (tag, values) => values.map (tag, ·)

variable {sections : List (Nat × List Value)} {tag : Nat}

theorem ofSections_cons (first : Nat × List Value) (rest : List (Nat × List Value)) :
    ofSections (first :: rest) = first.2.map (first.1, ·) ++ ofSections rest := rfl

theorem ofSections_append (sections others : List (Nat × List Value)) :
    ofSections (sections ++ others) = ofSections sections ++ ofSections others :=
  List.flatMap_append

theorem single_eq {α : Type} (tag : Nat) (wrap : α → Value) (value : Option α) :
    single tag wrap value = ofSections [(tag, value.toList.map wrap)] := by
  cases value <;> rfl

theorem many_eq {α : Type} (tag : Nat) (wrap : α → Value) (values : List α) :
    many tag wrap values = ofSections [(tag, values.map wrap)] := by
  rw [ofSections, List.flatMap_singleton]
  exact (List.map_map ..).symm

theorem piece_eq (tag : Nat) (ns : List Int32) :
    piece tag ns = ofSections [(tag, if ns.isEmpty then [] else [.packed ns])] := by
  cases ns <;> rfl

theorem tag_mem_of_mem_ofSections {entry : Nat × Value} (h : entry ∈ ofSections sections) :
    ∃ values, (entry.1, values) ∈ sections ∧ entry.2 ∈ values := by
  obtain ⟨⟨tag, values⟩, hsection, hentry⟩ := List.mem_flatMap.1 h
  obtain ⟨value, hvalue, rfl⟩ := List.mem_map.1 hentry
  exact ⟨values, hsection, hvalue⟩

theorem all_append (tag : Nat) (record others : Record) :
    all tag (record ++ others) = all tag record ++ all tag others := by
  rw [all, all, all, List.filter_append, List.map_append]

theorem all_cons (tag : Nat) (entry : Nat × Value) (rest : Record) :
    all tag (entry :: rest) =
      if entry.1 = tag then entry.2 :: all tag rest else all tag rest := by
  simp only [all, List.filter_cons, beq_iff_eq]
  split <;> rfl

theorem all_section (tag other : Nat) (values : List Value) :
    all tag (values.map (other, ·)) = if other = tag then values else [] := by
  induction values with
  | nil => exact (ite_self _).symm
  | cons value rest ih =>
    rw [List.map_cons, all_cons, ih]
    split <;> rfl

/-- The values of a field are those of its section. -/
theorem all_ofSections (h : (sections.map Prod.fst).Pairwise (· < ·)) (tag : Nat) :
    all tag (ofSections sections) = (sections.lookup tag).getD [] := by
  induction sections with
  | nil => rfl
  | cons first rest ih =>
    obtain ⟨hfirst, hrest⟩ := List.pairwise_cons.1 h
    rw [ofSections_cons, all_append, all_section, ih hrest, List.lookup_cons]
    by_cases htag : first.1 = tag
    · have hnone : rest.lookup tag = none := by
        rw [List.lookup_eq_none_iff]
        intro other hmem
        rw [bne_iff_ne]
        intro heq
        have hlt := hfirst other.1 (List.mem_map_of_mem hmem)
        omega
      rw [if_pos htag, beq_iff_eq.2 htag.symm, hnone]
      exact List.append_nil _
    · rw [if_neg htag, beq_false_of_ne (Ne.symm htag)]
      rfl

/-- The first value of a field is what it is looked up as. -/
theorem lookup_eq_head? (tag : Nat) (record : Record) :
    record.lookup tag = (all tag record).head? := by
  induction record with
  | nil => rfl
  | cons entry rest ih =>
    rw [List.lookup_cons, all_cons]
    by_cases h : entry.1 = tag
    · rw [if_pos h, beq_iff_eq.2 h.symm]
      rfl
    · rw [if_neg h, beq_false_of_ne (Ne.symm h)]
      exact ih

theorem lookup_ofSections (h : (sections.map Prod.fst).Pairwise (· < ·)) {values : List Value}
    (hsection : sections.lookup tag = some values) :
    (ofSections sections).lookup tag = values.head? := by
  rw [lookup_eq_head?, all_ofSections h, hsection, Option.getD_some]

/-! ## All fields but one -/

/-- The entries of a record that do not belong to the field with a tag. -/
def without (tag : Nat) (record : Record) : Record :=
  record.filter (·.1 != tag)

theorem without_ofSections (tag : Nat) (sections : List (Nat × List Value)) :
    without tag (ofSections sections) = ofSections (sections.filter (·.1 != tag)) := by
  induction sections with
  | nil => rfl
  | cons first rest ih =>
    have hfirst : without tag (first.2.map (first.1, ·)) =
        if first.1 != tag then first.2.map (first.1, ·) else [] := by
      rw [without, List.filter_map]
      cases h : first.1 != tag <;> simp [Function.comp_def, h]
    rw [ofSections_cons, without, List.filter_append, ← without, ← without, ih, hfirst,
      List.filter_cons]
    split <;> rfl

/-! ## Fields by kind -/

section

variable (h : (sections.map Prod.fst).Pairwise (· < ·))

include h

theorem text?_ofSections {value : Option String}
    (hsection : sections.lookup tag = some (value.toList.map .text)) :
    (ofSections sections).text? tag = value := by
  rw [text?, lookup_ofSections h hsection]
  cases value <;> rfl

theorem bool?_ofSections {value : Option Bool}
    (hsection : sections.lookup tag = some (value.toList.map .bool)) :
    (ofSections sections).bool? tag = value := by
  rw [bool?, lookup_ofSections h hsection]
  cases value <;> rfl

theorem int32?_ofSections {value : Option Int32}
    (hsection : sections.lookup tag = some (value.toList.map .int32)) :
    (ofSections sections).int32? tag = value := by
  rw [int32?, lookup_ofSections h hsection]
  cases value <;> rfl

theorem record?_ofSections {α : Type} (toRecord : α → Record) {value : Option α}
    (hsection : sections.lookup tag = some (value.toList.map fun a => .record (toRecord a))) :
    (ofSections sections).record? tag = value.map toRecord := by
  rw [record?, lookup_ofSections h hsection]
  cases value <;> rfl

theorem packed_ofSections {ns : List Int32}
    (hsection : sections.lookup tag = some (if ns.isEmpty then [] else [.packed ns])) :
    (ofSections sections).packed tag = ns := by
  rw [packed, lookup_ofSections h hsection]
  cases ns <;> rfl

theorem texts_ofSections {values : List String}
    (hsection : sections.lookup tag = some (values.map .text)) :
    (ofSections sections).texts tag = values := by
  rw [texts, all_ofSections h, hsection, Option.getD_some, List.filterMap_map]
  exact List.filterMap_some

theorem int32s_ofSections {values : List Int32}
    (hsection : sections.lookup tag = some (values.map .int32)) :
    (ofSections sections).int32s tag = values := by
  rw [int32s, all_ofSections h, hsection, Option.getD_some, List.filterMap_map]
  exact List.filterMap_some

theorem records_ofSections {α : Type} (toRecord : α → Record) {values : List α}
    (hsection : sections.lookup tag = some (values.map fun a => .record (toRecord a))) :
    (ofSections sections).records tag = values.map toRecord := by
  rw [records, all_ofSections h, hsection, Option.getD_some, List.filterMap_map]
  exact congrFun List.filterMap_eq_map values

end

end Record

/-! ## Well-formed sections -/

/-- Whether a section is one of a kind of message. -/
def SectionFits (inner : MessageType → Record → Prop) (type : MessageType)
    (part : Nat × List Value) : Prop :=
  ∃ field, type.field? part.1 = some field ∧
    (field.occurrence = .repeated ∨ part.2.length ≤ 1) ∧ ∀ value ∈ part.2, field.Admits inner value

namespace SectionFits

variable {inner : MessageType → Record → Prop} {type : MessageType} {tag : Nat}
  {fieldType : FieldType}

/-- A field that may be present. -/
theorem single {α : Type} {wrap : α → Value} {value : Option α}
    (hfield : type.field? tag = some ⟨tag, fieldType, .optional⟩)
    (h : ∀ a, value = some a → fieldType.Admits inner (wrap a)) :
    SectionFits inner type (tag, value.toList.map wrap) := by
  refine ⟨_, hfield, .inr ?_, fun wrapped hmem => ?_⟩
  · cases value with
    | none => exact Nat.zero_le 1
    | some a => exact Nat.le_refl 1
  · obtain ⟨a, ha, rfl⟩ := List.mem_map.1 hmem
    exact (Field.admits_iff (by simp)).2 (h a (Option.mem_toList.1 ha))

/-- A field that may repeat. -/
theorem many {α : Type} {wrap : α → Value} {values : List α}
    (hfield : type.field? tag = some ⟨tag, fieldType, .repeated⟩)
    (h : ∀ a ∈ values, fieldType.Admits inner (wrap a)) :
    SectionFits inner type (tag, values.map wrap) := by
  refine ⟨_, hfield, .inl rfl, ?_⟩
  intro wrapped hmem
  obtain ⟨a, ha, rfl⟩ := List.mem_map.1 hmem
  exact (Field.admits_iff (by simp)).2 (h a ha)

/-- A list that is laid out as one piece. -/
theorem piece {ns : List Int32} (hfield : type.field? tag = some ⟨tag, fieldType, .packed⟩) :
    SectionFits inner type (tag, if ns.isEmpty then [] else [.packed ns]) := by
  cases ns with
  | nil => exact ⟨_, hfield, .inr (Nat.zero_le 1), fun _ hmem => absurd hmem List.not_mem_nil⟩
  | cons n rest =>
    refine ⟨_, hfield, .inr (Nat.le_refl 1), ?_⟩
    intro wrapped hmem
    obtain rfl := List.mem_singleton.1 hmem
    exact Field.admits_packed rfl (List.cons_ne_nil n rest)

end SectionFits

/-- A record of sections is well formed if the sections are, and no field is required. -/
theorem wellFormed_ofSections {inner : MessageType → Record → Prop} {type : MessageType}
    {sections : List (Nat × List Value)} (h : (sections.map Prod.fst).Pairwise (· < ·))
    (hfits : ∀ part ∈ sections, SectionFits inner type part)
    (hrequired : ∀ field ∈ type.fields, field.occurrence ≠ .required) :
    WellFormed inner type (Record.ofSections sections) where
  ascending := by
    refine List.pairwise_flatMap.2 ⟨fun part hmem => ?_, ?_⟩
    · obtain ⟨field, hfield, hrepeats | hlength, -⟩ := hfits part hmem
      · refine List.pairwise_map.2 (List.pairwise_of_forall fun _ _ => ?_)
        exact .inr ⟨rfl, field, hfield, hrepeats⟩
      · refine List.pairwise_map.2 ?_
        rcases hvalues : part.2 with _ | ⟨value, _ | ⟨second, rest⟩⟩
        · exact List.Pairwise.nil
        · exact List.pairwise_singleton _ _
        · rw [hvalues] at hlength
          simp at hlength
    · refine (List.pairwise_map.1 h).imp fun {part later} hlt entry hentry other hother => .inl ?_
      obtain ⟨_, -, rfl⟩ := List.mem_map.1 hentry
      obtain ⟨_, -, rfl⟩ := List.mem_map.1 hother
      exact hlt
  admitted := fun entry hmem => by
    obtain ⟨values, hsection, hvalue⟩ := Record.tag_mem_of_mem_ofSections hmem
    obtain ⟨field, hfield, -, hadmits⟩ := hfits _ hsection
    exact ⟨field, hfield, hadmits _ hvalue⟩
  required := fun field hmem h => absurd h (hrequired field hmem)

end SchemaOptions.Wire
