import Mathlib.Data.List.Basic
import SchemaOptions.Proofs.Yaml.Characters

/-!
# Numbers as plain words

A number in decimal digits fits a plain scalar (`fitsPlain_digits`) and is read as the number that
it is (`uint64Of?_repr`).
-/

namespace SchemaOptions.Yaml

open SchemaOptions.Text

/-! ## Digits -/

/-- Whether all characters of a word are decimal digits. -/
def Digits (cs : List Char) : Prop :=
  ∀ c ∈ cs, c.isDigit = true

theorem digits_toDigits (n : Nat) : Digits (Nat.toDigits 10 n) := fun _ hmem =>
  Nat.isDigit_of_mem_toDigits (by decide) (by decide) hmem

/-- A property of each of the ten digits is one of all of them. -/
theorem forall_isDigit {p : Char → Prop} (h : ∀ n < 10, p (Nat.digitChar n)) {c : Char}
    (hc : c.isDigit = true) : p c := by
  have hcode : ∀ n < 10, Char.ofNat (48 + n) = Nat.digitChar n := by decide
  have hrange : 48 ≤ c.toNat ∧ c.toNat ≤ 57 := by
    simp only [Char.isDigit, Bool.and_eq_true, decide_eq_true_eq] at hc
    exact hc
  obtain ⟨n, hn⟩ := Nat.exists_eq_add_of_le hrange.1
  have hlt : n < 10 := by omega
  rw [← Char.ofNat_toNat c, hn, hcode n hlt]
  exact h n hlt

/-- A digit can be shown and separates no words. -/
theorem isSeparator_of_isDigit {c : Char} (h : c.isDigit = true) :
    isShown c = true ∧ isSeparator c = false :=
  forall_isDigit (p := fun c => isShown c = true ∧ isSeparator c = false) (by decide) h

/-- A digit is none of some other characters. -/
theorem beq_eq_false_of_isDigit {c : Char} (h : c.isDigit = true) (mark : Char)
    (hmark : mark.isDigit = false) : (c == mark) = false := by
  refine beq_eq_false_iff_ne.2 ?_
  rintro rfl
  rw [h] at hmark
  cases hmark

/-- Among digits there is no mark. -/
theorem holdsMark_digits {cs : List Char} (h : Digits cs) : holdsMark cs = false := by
  induction cs with
  | nil => rfl
  | cons a rest ih =>
    cases rest with
    | nil => rfl
    | cons b rest =>
      obtain ⟨ha, hrest⟩ := List.forall_mem_cons.1 h
      have hb := hrest b List.mem_cons_self
      rw [holdsMark, (isSeparator_of_isDigit ha).2, beq_eq_false_of_isDigit hb ':' rfl, ih hrest]
      rfl

/-- At the start of digits there is no mark. -/
theorem opensWithMark_digits {cs : List Char} (h : Digits cs) : opensWithMark cs = false := by
  cases cs with
  | nil => rfl
  | cons c rest =>
    have hc := (List.forall_mem_cons.1 h).1
    have hmark : isFlowMark c = false ∧
        ['#', '&', '*', '!', '|', '>', '\x27', '\x22', '%', '@', '\x60'].contains c = false :=
      forall_isDigit (p := fun c => isFlowMark c = false ∧
        ['#', '&', '*', '!', '|', '>', '\x27', '\x22', '%', '@', '\x60'].contains c = false)
        (by decide) hc
    rw [opensWithMark, hmark.1, hmark.2, beq_eq_false_of_isDigit hc '?' rfl,
      beq_eq_false_of_isDigit hc ':' rfl, beq_eq_false_of_isDigit hc '-' rfl]
    rfl

theorem opensLikeDocumentMark_digits {cs : List Char} (h : Digits cs) :
    opensLikeDocumentMark cs = false := by
  cases cs with
  | nil => rfl
  | cons c rest =>
    have hc := (List.forall_mem_cons.1 h).1
    have hhyphen := (BEq.comm (a := '-')).trans (beq_eq_false_of_isDigit hc '-' rfl)
    have hstop := (BEq.comm (a := '.')).trans (beq_eq_false_of_isDigit hc '.' rfl)
    rw [opensLikeDocumentMark, List.isPrefixOf, List.isPrefixOf, hhyphen, hstop]
    rfl

/-- A word of digits fits a plain scalar. -/
theorem fitsPlain_digits {cs : List Char} (h : Digits cs) : fitsPlain cs = true := by
  have hshown : cs.all isShown = true :=
    List.all_eq_true.2 fun c hmem => (isSeparator_of_isDigit (h c hmem)).1
  have hline : cs.any isLineEnd = false := by
    refine List.any_eq_false.2 fun c hmem => Bool.eq_false_iff.1 ?_
    have hc := (isSeparator_of_isDigit (h c hmem)).2
    simp only [isSeparator, Bool.or_eq_false_iff] at hc
    exact hc.1.2
  have hspace : ' ' ∉ cs := fun hmem => absurd (h ' ' hmem) (by decide)
  have hhead : (cs.head? != some ' ') = true :=
    bne_iff_ne.2 fun heq => hspace (List.mem_of_head? heq)
  have hlast : hasTrailingSpace cs = false :=
    beq_eq_false_iff_ne.2 fun heq => hspace (List.mem_of_getLast? heq)
  rw [fitsPlain, hshown, hline, hhead, hlast, opensLikeDocumentMark_digits h,
    opensWithMark_digits h, holdsMark_digits h]
  rfl

/-! ## Numbers -/

/-- Digits are read as the number that they spell. -/
theorem digitsOf?_digits {cs : List Char} (hne : cs ≠ []) (h : Digits cs) :
    digitsOf? 10 cs = some (Nat.ofDigitChars 10 cs 0) := by
  have hdigit {c : Char} (hc : c.isDigit = true) : digitOf? 10 c = some (c.toNat - 48) :=
    forall_isDigit (p := fun c => digitOf? 10 c = some (c.toNat - 48)) (by decide) hc
  have hfold (cs : List Char) (h : Digits cs) (n : Nat) :
      cs.foldlM (fun n c => (digitOf? 10 c).map (10 * n + ·)) n =
        some (Nat.ofDigitChars 10 cs n) := by
    induction cs generalizing n with
    | nil => rfl
    | cons c rest ih =>
      obtain ⟨hc, hrest⟩ := List.forall_mem_cons.1 h
      rw [List.foldlM_cons, hdigit hc, Nat.ofDigitChars_cons]
      exact ih hrest _
  rw [digitsOf?, if_neg (Bool.eq_false_iff.1 (List.isEmpty_eq_false_iff.2 hne)), hfold cs h]

/-- The digits of a number other than zero do not open with one. -/
theorem head?_toDigits {n : Nat} (h : 0 < n) : (Nat.toDigits 10 n).head? ≠ some '0' := by
  induction n using Nat.strongRecOn with
  | ind n ih =>
    obtain hlt | hle := Nat.lt_or_ge n 10
    · have hdigit : ∀ n < 10, 0 < n → Nat.digitChar n ≠ '0' := by decide
      rw [Nat.toDigits_of_lt_base hlt]
      exact fun heq => hdigit n hlt h (Option.some.inj heq)
    · rw [Nat.toDigits_of_base_le (by decide) hle,
        List.head?_append_of_ne_nil _ Nat.toDigits_ne_nil]
      exact ih (n / 10) (Nat.div_lt_self h (by decide)) (Nat.div_pos hle (by decide))

theorem hasLeadingZero_toDigits (n : Nat) : hasLeadingZero (Nat.toDigits 10 n) = false := by
  cases n with
  | zero => rfl
  | succ n =>
    rw [hasLeadingZero, beq_eq_false_iff_ne.2 (head?_toDigits (Nat.succ_pos n))]
    rfl

/-- A number below a bound is read back from its digits. -/
theorem unsignedOf?_toDigits {bound n : Nat} (h : n < bound) :
    unsignedOf? bound (Nat.toDigits 10 n) = some n := by
  have hdigits := digits_toDigits n
  have hletter (c : Char) (hc : c.isDigit = false) (rest : List Char) :
      Nat.toDigits 10 n ≠ '0' :: c :: rest := by
    intro heq
    rw [heq] at hdigits
    have := hdigits c (List.mem_cons_of_mem _ List.mem_cons_self)
    rw [hc] at this
    cases this
  have hnumber : digitsOf? 10 (Nat.toDigits 10 n) = some n := by
    rw [digitsOf?_digits Nat.toDigits_ne_nil hdigits, Nat.ofDigitChars_ten_toDigits]
  unfold unsignedOf?
  split
  · rename_i heq
    exact absurd heq (hletter 'x' rfl _)
  · rename_i heq
    exact absurd heq (hletter 'o' rfl _)
  · rename_i heq
    exact absurd heq (hletter 'b' rfl _)
  · rw [hasLeadingZero_toDigits, hnumber]
    exact Option.filter_some_pos (decide_eq_true h)

/-- A number of 64 bits is read back from its digits. -/
theorem uint64Of?_repr (n : UInt64) : uint64Of? n.toNat.repr.toList = some n := by
  have hplus : withoutPlus (Nat.toDigits 10 n.toNat) = Nat.toDigits 10 n.toNat := by
    unfold withoutPlus
    split
    · rename_i heq
      have hdigits := digits_toDigits n.toNat
      rw [heq] at hdigits
      exact absurd (hdigits '+' List.mem_cons_self) (by decide)
    · rfl
  rw [uint64Of?, Nat.toList_repr, hplus, unsignedOf?_toDigits n.toNat_lt, Option.map_some,
    UInt64.ofNat_toNat]

/-- A number is not written as something that is absent. -/
theorem isNull_digits {cs : List Char} (h : Digits cs) : isNull cs = false := by
  have hnot (word : String) (c : Char) (hmem : c ∈ word.toList) (hc : c.isDigit = false) :
      String.ofList cs ≠ word := by
    rintro rfl
    rw [String.toList_ofList] at hmem
    rw [h c hmem] at hc
    cases hc
  rw [isNull, List.contains_eq_mem, decide_eq_false_iff_not]
  simp only [List.mem_cons, List.not_mem_nil, or_false, not_or]
  exact ⟨hnot "null" 'n' (by decide) rfl, hnot "Null" 'N' (by decide) rfl,
    hnot "NULL" 'N' (by decide) rfl, hnot "~" '~' (by decide) rfl⟩

end SchemaOptions.Yaml
