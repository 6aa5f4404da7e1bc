import Mathlib.Data.List.Basic
import SchemaOptions.Proofs.PascalCase
import SchemaOptions.Proofs.UpperCase

/-!
# Separators and Pascal case

To put a name into Pascal case is to forget its separators: how many stand in a row does not matter,
those at the ends leave no trace (`pascalChars_append_separators`), and there are none in the result
(`isWordSeparator_of_mem_pascalChars`). So the result is one word, and it opens with an upper case,
which is its own (`upper_of_head?_pascalChars`); hence nothing happens to it if it is put into
Pascal case again (`pascalChars_pascalChars`).
-/

namespace SchemaOptions.Naming

open Text

variable {cs gap : List Char} {x : Char}

/-! ## Gaps between words -/

/-- Nothing comes of separators at the front. -/
theorem pascalChars_separators_append (h : ∀ c ∈ gap, isWordSeparator c = true) (cs : List Char) :
    pascalChars (gap ++ cs) = pascalChars cs := by
  induction gap with
  | nil => rfl
  | cons c rest ih =>
    obtain ⟨hc, hrest⟩ := List.forall_mem_cons.1 h
    rw [List.cons_append, pascalChars_cons_separator hc, ih hrest]

/-- Names on the two sides of separators are put into Pascal case each on its own. -/
theorem pascalChars_append_separators (hne : gap ≠ []) (h : ∀ c ∈ gap, isWordSeparator c = true)
    (cs others : List Char) :
    pascalChars (cs ++ gap ++ others) = pascalChars cs ++ pascalChars others := by
  obtain ⟨c, rest, rfl⟩ := List.exists_cons_of_ne_nil hne
  obtain ⟨hc, hrest⟩ := List.forall_mem_cons.1 h
  rw [List.append_assoc, List.cons_append, pascalChars_append_separator hc,
    pascalChars_separators_append hrest]

/-- Nothing comes of separators at the end. -/
theorem pascalChars_append_of_separators (h : ∀ c ∈ gap, isWordSeparator c = true)
    (cs : List Char) : pascalChars (cs ++ gap) = pascalChars cs := by
  by_cases hne : gap = []
  · rw [hne, List.append_nil]
  · have happend := pascalChars_append_separators hne h cs []
    rwa [List.append_nil, show pascalChars [] = [] from rfl, List.append_nil] at happend

/-- Something comes of a name unless it consists of separators. -/
theorem pascalChars_eq_nil_iff : pascalChars cs = [] ↔ ∀ c ∈ cs, isWordSeparator c = true := by
  induction cs with
  | nil => exact iff_of_true rfl nofun
  | cons c rest ih =>
    rw [List.forall_mem_cons]
    cases hc : isWordSeparator c with
    | true => rw [pascalChars_cons_separator hc, ih, and_iff_right rfl]
    | false =>
      obtain ⟨others, heq⟩ := pascalChars_cons hc rest
      refine iff_of_false (fun hnil => ?_) nofun
      rw [heq] at hnil
      exact upper_ne_nil c (List.append_eq_nil_iff.1 hnil).1

/-! ## One word -/

/-- In Pascal case there are no separators. -/
theorem isWordSeparator_of_mem_pascalChars (h : x ∈ pascalChars cs) :
    isWordSeparator x = false := by
  obtain ⟨c, -, hword, hx⟩ := mem_pascalChars h
  obtain hupper | rfl := hx
  · rw [← Bool.not_eq_true] at hword ⊢
    exact fun hx => hword (isWordSeparator_of_mem_upper hupper hx)
  · exact hword

/-- A name in Pascal case opens with what is its own upper case. -/
theorem upper_of_head?_pascalChars (h : (pascalChars cs).head? = some x) : upper x = [x] := by
  induction cs with
  | nil => cases h
  | cons c rest ih =>
    cases hc : isWordSeparator c with
    | true =>
      rw [pascalChars_cons_separator hc] at h
      exact ih h
    | false =>
      obtain ⟨others, heq⟩ := pascalChars_cons hc rest
      rw [heq, List.head?_append_of_ne_nil _ (upper_ne_nil c)] at h
      exact upper_of_mem_upper (List.mem_of_head? h)

/-- A name in Pascal case stays as it is if it is put into Pascal case again. -/
theorem pascalChars_pascalChars (cs : List Char) :
    pascalChars (pascalChars cs) = pascalChars cs := by
  have hword : (pascalChars cs).splitOnP isWordSeparator = [pascalChars cs] :=
    List.splitOnP_eq_singleton fun x hx => isWordSeparator_of_mem_pascalChars hx
  -- So only the first character is looked at again.
  rw [pascalChars, hword, List.flatMap_singleton]
  cases hchars : pascalChars cs with
  | nil => rfl
  | cons x rest =>
    have hhead : (pascalChars cs).head? = some x := by rw [hchars, List.head?_cons]
    rw [capitalized, upper_of_head?_pascalChars hhead, List.singleton_append]

/-- Pascal case distributes over separators. Names with a separator between them are put into Pascal
case each on its own, and so they are with more separators in between; those before and after a name
make no difference. No separator is left, nothing at all is left exactly of a name that consists of
separators, and a name in Pascal case stays as it is. -/
theorem pascalCase_separators :
    (∀ (name other : String) (c : Char), isWordSeparator c = true →
      pascalCase (name ++ String.singleton c ++ other) = pascalCase name ++ pascalCase other) ∧
    (∀ name, ∀ c ∈ (pascalCase name).toList, isWordSeparator c = false) ∧
    (∀ name, pascalCase name = "" ↔ ∀ c ∈ name.toList, isWordSeparator c = true) ∧
    (∀ name, pascalCase (pascalCase name) = pascalCase name) ∧
    (∀ name other gap : String, gap ≠ "" → (∀ c ∈ gap.toList, isWordSeparator c = true) →
      pascalCase (name ++ gap ++ other) = pascalCase name ++ pascalCase other) ∧
    ∀ name before after : String, (∀ c ∈ (before ++ after).toList, isWordSeparator c = true) →
      pascalCase (before ++ name ++ after) = pascalCase name := by
  have hgap (name other gap : String) (hne : gap ≠ "")
      (h : ∀ c ∈ gap.toList, isWordSeparator c = true) :
      pascalCase (name ++ gap ++ other) = pascalCase name ++ pascalCase other := by
    have hchars : gap.toList ≠ [] := fun hnil => hne (String.toList_eq_nil_iff.1 hnil)
    simp only [pascalCase, String.toList_append, pascalChars_append_separators hchars h,
      String.ofList_append]
  refine ⟨fun name other c hc => ?_, fun name c hmem => ?_, fun name => ?_, fun name => ?_, hgap,
    fun name before after h => ?_⟩
  · refine hgap name other (String.singleton c) String.singleton_ne_empty ?_
    rw [String.toList_singleton]
    exact List.forall_mem_singleton.2 hc
  · rw [pascalCase, String.toList_ofList] at hmem
    exact isWordSeparator_of_mem_pascalChars hmem
  · rw [pascalCase, String.ofList_eq_empty_iff, pascalChars_eq_nil_iff]
  · rw [pascalCase, pascalCase, String.toList_ofList, pascalChars_pascalChars]
  · rw [String.toList_append] at h
    obtain ⟨hbefore, hafter⟩ := List.forall_mem_append.1 h
    simp only [pascalCase, String.toList_append]
    rw [pascalChars_append_of_separators hafter, pascalChars_separators_append hbefore]

/-- Names whose first characters become two each in upper case, with one ideographic space between
them, with other separators, and with separators at the ends. -/
theorem pascalCase_separators_expanding :
    pascalCase "ﬁle" = "FIle" ∧ pascalCase "ŉame" = "ʼName" ∧
      pascalCase "ﬁle\u3000ŉame" = "FIleʼName" ∧ pascalCase "ﬁle_-. ŉame" = "FIleʼName" ∧
      pascalCase "_ﬁle\u00a0" = "FIle" := by
  obtain ⟨hone, -, -, -, hmany, hends⟩ := pascalCase_separators
  have hfirst : pascalCase "ﬁle" = "FIle" := by decide +kernel
  have hsecond : pascalCase "ŉame" = "ʼName" := by decide +kernel
  refine ⟨hfirst, hsecond, ?_, ?_, ?_⟩
  · rw [show "ﬁle\u3000ŉame" = "ﬁle" ++ String.singleton '\u3000' ++ "ŉame" by decide +kernel,
      hone _ _ _ (by decide), hfirst, hsecond]
    decide +kernel
  · rw [show "ﬁle_-. ŉame" = "ﬁle" ++ "_-. " ++ "ŉame" by decide +kernel,
      hmany _ _ _ (by decide) (List.all_eq_true.1 (by decide +kernel)), hfirst, hsecond]
    decide +kernel
  · rw [show "_ﬁle\u00a0" = "_" ++ "ﬁle" ++ "\u00a0" by decide +kernel,
      hends _ _ _ (List.all_eq_true.1 (by decide +kernel)), hfirst]

end SchemaOptions.Naming
