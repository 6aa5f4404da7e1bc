import SchemaOptions.Naming.Identifier
import SchemaOptions.Naming.PascalCase

/-!
# The Pascal case of identifiers

A separator takes a name apart into two, whose Pascal cases stand in a row
(`pascalChars_append_separator`), and a word contributes its own characters, the first of them in
upper case. In an identifier the only separators are underscores, so what is left of it are letters
and digits (`isAlphanum_of_mem_pascalChars`), and what comes first is the upper case of its first
character that is no underscore (`head?_pascalChars`). That may be a digit, or there may be no such
character at all; otherwise the Pascal case is an identifier again
(`isIdentifierWord_pascalChars_iff`).
-/

namespace SchemaOptions

/-! ## Letters and digits -/

namespace Text

theorem isAlpha_iff {c : Char} :
    c.isAlpha = true ↔ 'A' ≤ c ∧ c ≤ 'Z' ∨ 'a' ≤ c ∧ c ≤ 'z' := by
  have hupper : c.isUpper = true ↔ 'A' ≤ c ∧ c ≤ 'Z' := decide_eq_true_iff
  have hlower : c.isLower = true ↔ 'a' ≤ c ∧ c ≤ 'z' :=
    Bool.and_eq_true_iff.trans (and_congr decide_eq_true_iff decide_eq_true_iff)
  exact Bool.or_eq_true_iff.trans (or_congr hupper hlower)

theorem isAlphanum_iff {c : Char} :
    c.isAlphanum = true ↔ c.isAlpha = true ∨ '0' ≤ c ∧ c ≤ '9' := by
  have hdigit : c.isDigit = true ↔ '0' ≤ c ∧ c ≤ '9' :=
    Bool.and_eq_true_iff.trans (and_congr decide_eq_true_iff decide_eq_true_iff)
  exact Bool.or_eq_true_iff.trans (or_congr Iff.rfl hdigit)

theorem toNat_lt_of_isAlphanum {c : Char} (h : c.isAlphanum) : c.toNat < 128 := by
  have hbelow {last : Char} (hle : c ≤ last) (hlast : last.toNat < 128) : c.toNat < 128 :=
    Nat.lt_of_le_of_lt (UInt32.le_iff_toNat_le.1 hle) hlast
  rw [isAlphanum_iff, isAlpha_iff] at h
  obtain (⟨-, hlast⟩ | ⟨-, hlast⟩) | ⟨-, hlast⟩ := h
  · exact hbelow hlast (by decide)
  · exact hbelow hlast (by decide)
  · exact hbelow hlast (by decide)

end Text

namespace Naming

open Text

/-- A letter or digit belongs to a word, and its upper case is one character of the same kind. -/
theorem upper_of_isAlphanum {c : Char} (h : c.isAlphanum) :
    isWordSeparator c = false ∧ upper c = [c.toUpper] ∧ c.toUpper.isAlphanum ∧
      c.toUpper.isAlpha = c.isAlpha := by
  have htable : ∀ n < 128, (Char.ofNat n).isAlphanum →
      isWordSeparator (Char.ofNat n) = false ∧ upper (Char.ofNat n) = [(Char.ofNat n).toUpper] ∧
        (Char.ofNat n).toUpper.isAlphanum ∧
        (Char.ofNat n).toUpper.isAlpha = (Char.ofNat n).isAlpha := by
    decide +kernel
  have hc := htable c.toNat (toNat_lt_of_isAlphanum h)
  rw [Char.ofNat_toNat] at hc
  exact hc h

/-- What may stand in an identifier is an underscore, which separates words, or belongs to one. -/
theorem eq_underscore_or_isAlphanum {c : Char} (h : isIdentifierPart c) :
    c = '_' ∨ c.isAlphanum = true := by
  obtain halphanum | hunderscore := Bool.or_eq_true_iff.1 h
  · exact .inr halphanum
  · exact .inl (eq_of_beq hunderscore)

/-! ## Words -/

/-- The words of a text hold no separator, and nothing that the text does not hold. -/
theorem mem_of_mem_splitOnP {separates : Char → Bool} {cs word : List Char}
    (h : word ∈ cs.splitOnP separates) : ∀ c ∈ word, c ∈ cs ∧ separates c = false := by
  induction cs generalizing word with
  | nil =>
    rw [List.splitOnP_nil, List.mem_singleton] at h
    rw [h]
    exact fun _ hmem => nomatch hmem
  | cons first rest ih =>
    rw [List.splitOnP_cons_eq_if_modifyHead] at h
    have hlater {word : List Char} (h : word ∈ rest.splitOnP separates) :
        ∀ c ∈ word, c ∈ first :: rest ∧ separates c = false :=
      fun c hmem => (ih h c hmem).imp_left (List.mem_cons_of_mem first)
    split at h
    · obtain rfl | hword := List.mem_cons.1 h
      · exact fun _ hmem => nomatch hmem
      · exact hlater hword
    · rename_i hfirst
      obtain ⟨opening, others, hwords⟩ :=
        List.exists_cons_of_ne_nil (List.splitOnP_ne_nil separates rest)
      rw [hwords, List.modifyHead_cons] at h
      obtain rfl | hword := List.mem_cons.1 h
      · refine List.forall_mem_cons.2 ⟨⟨List.mem_cons_self, Bool.eq_false_iff.2 hfirst⟩, ?_⟩
        exact hlater (hwords ▸ List.mem_cons_self)
      · exact hlater (hwords ▸ List.mem_cons_of_mem _ hword)

/-- Names on the two sides of a separator are put into Pascal case each on its own. -/
theorem pascalChars_append_separator {separator : Char} (h : isWordSeparator separator)
    (cs others : List Char) :
    pascalChars (cs ++ separator :: others) = pascalChars cs ++ pascalChars others := by
  unfold pascalChars
  rw [List.splitOnP_append_cons cs others h, List.flatMap_append]

/-- Nothing comes of a separator at the front. -/
theorem pascalChars_cons_separator {separator : Char} (h : isWordSeparator separator)
    (cs : List Char) : pascalChars (separator :: cs) = pascalChars cs :=
  pascalChars_append_separator h [] cs

/-- A name that opens with a word opens, in Pascal case, with the upper case of its first
character. -/
theorem pascalChars_cons {c : Char} (h : isWordSeparator c = false) (cs : List Char) :
    ∃ rest, pascalChars (c :: cs) = upper c ++ rest := by
  obtain ⟨word, words, hwords⟩ :=
    List.exists_cons_of_ne_nil (List.splitOnP_ne_nil isWordSeparator cs)
  refine ⟨word ++ words.flatMap capitalized, ?_⟩
  rw [pascalChars, List.splitOnP_cons_eq_if_modifyHead, if_neg (Bool.eq_false_iff.1 h), hwords,
    List.modifyHead_cons, List.flatMap_cons, capitalized, List.append_assoc]

/-- What stands in a name in Pascal case comes from a character of the name that is no separator:
it is that character, or part of its upper case. -/
theorem mem_pascalChars {x : Char} {cs : List Char} (h : x ∈ pascalChars cs) :
    ∃ c ∈ cs, isWordSeparator c = false ∧ (x ∈ upper c ∨ x = c) := by
  obtain ⟨word, hword, hx⟩ := List.mem_flatMap.1 h
  have hchars := mem_of_mem_splitOnP hword
  cases word with
  | nil => cases hx
  | cons c rest =>
    obtain ⟨hc, hrest⟩ := List.forall_mem_cons.1 hchars
    obtain hupper | hlater := List.mem_append.1 hx
    · exact ⟨c, hc.1, hc.2, .inl hupper⟩
    · exact ⟨x, (hrest x hlater).1, (hrest x hlater).2, .inr rfl⟩

/-! ## Identifiers -/

/-- In Pascal case an identifier is letters and digits. -/
theorem isAlphanum_of_mem_pascalChars {cs : List Char} (h : ∀ c ∈ cs, isIdentifierPart c) :
    ∀ x ∈ pascalChars cs, x.isAlphanum = true := by
  intro x hx
  obtain ⟨c, hc, hseparates, hx⟩ := mem_pascalChars hx
  obtain rfl | halphanum := eq_underscore_or_isAlphanum (h c hc)
  · cases hseparates
  · obtain ⟨-, hupper, hkept, -⟩ := upper_of_isAlphanum halphanum
    rw [hupper, List.mem_singleton] at hx
    obtain rfl | rfl := hx
    · exact hkept
    · exact halphanum

/-- In Pascal case an identifier opens with the upper case of its first character that is no
underscore, if there is one. -/
theorem head?_pascalChars {cs : List Char} (h : ∀ c ∈ cs, isIdentifierPart c) :
    (pascalChars cs).head? = (cs.find? (· != '_')).map Char.toUpper := by
  induction cs with
  | nil => rfl
  | cons c rest ih =>
    obtain ⟨hc, hrest⟩ := List.forall_mem_cons.1 h
    obtain rfl | halphanum := eq_underscore_or_isAlphanum hc
    · rw [pascalChars_cons_separator (by decide), ih hrest]
      rfl
    · obtain ⟨hword, hupper, -⟩ := upper_of_isAlphanum halphanum
      have hne : (c != '_') = true := by
        rw [bne_iff_ne]
        rintro rfl
        cases hword
      obtain ⟨others, heq⟩ := pascalChars_cons hword rest
      rw [heq, hupper, List.find?_cons]
      simp only [hne]
      rfl

/-- In Pascal case an identifier is one again if its first character that is no underscore is a
letter. -/
theorem isIdentifierWord_pascalChars_iff {cs : List Char} (h : ∀ c ∈ cs, isIdentifierPart c) :
    isIdentifierWord (pascalChars cs) ↔ (cs.find? (· != '_')).any Char.isAlpha := by
  have hhead := head?_pascalChars h
  have hchars := isAlphanum_of_mem_pascalChars h
  cases hfind : cs.find? (· != '_') with
  | none =>
    rw [hfind, Option.map_none, List.head?_eq_none_iff] at hhead
    rw [hhead]
    exact Iff.rfl
  | some c =>
    rw [hfind, Option.map_some] at hhead
    obtain ⟨rest, hrest⟩ := List.head?_eq_some_iff.1 hhead
    rw [hrest] at hchars
    obtain ⟨hfirst, hothers⟩ := List.forall_mem_cons.1 hchars
    have hparts : rest.all isIdentifierPart = true := by
      rw [List.all_eq_true]
      intro x hx
      rw [isIdentifierPart, hothers x hx, Bool.true_or]
    have hunderscore : (c.toUpper == '_') = false := by
      rw [beq_eq_false_iff_ne]
      intro heq
      rw [heq] at hfirst
      cases hfirst
    have hc : c.isAlphanum = true := by
      obtain rfl | halphanum := eq_underscore_or_isAlphanum (h c (List.mem_of_find?_eq_some hfind))
      · cases List.find?_some hfind
      · exact halphanum
    rw [hrest, isIdentifierWord, isIdentifierStart, hunderscore, hparts, Bool.or_false,
      Bool.and_true, (upper_of_isAlphanum hc).2.2.2, Option.any_some]

end Naming

end SchemaOptions
