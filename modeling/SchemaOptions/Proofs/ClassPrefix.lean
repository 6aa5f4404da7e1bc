import SchemaOptions.Proofs.Package
import SchemaOptions.Proofs.UpperCase
import SchemaOptions.Rule.ClassPrefix

/-!
# Initials

The class prefix of a package comes from its parts: those that are empty or a version are passed
over, and of each of the others the first character is taken in upper case (`initials`). So the
initials of two packages that are joined stand in a row (`initials_append`), and there are none just
if every part is passed over (`initials_eq_nil_iff`), for the upper case of a character is never
empty. Only the whole is compared with the prefix that no file may have.
-/

namespace SchemaOptions

open Naming

/-- Whether a part of a package has no share in its class prefix. -/
def PassedOver (part : List Char) : Prop :=
  part = [] ∨ Version part

instance (part : List Char) : Decidable (PassedOver part) :=
  inferInstanceAs (Decidable (_ ∨ _))

/-- The upper case of the first character of each part that is not passed over. -/
def initials (parts : List (List Char)) : List Char :=
  (parts.filter fun part => ¬PassedOver part).flatMap fun part => part.head?.elim [] Text.upper

theorem initials_append (parts others : List (List Char)) :
    initials (parts ++ others) = initials parts ++ initials others := by
  simp [initials]

theorem initials_eq_nil_iff {parts : List (List Char)} :
    initials parts = [] ↔ ∀ part ∈ parts, PassedOver part := by
  simp only [initials, List.flatMap_eq_nil_iff, List.mem_filter, decide_eq_true_eq, and_imp]
  refine forall₂_congr fun part hmem => ⟨fun h => ?_, fun h hnot => absurd h hnot⟩
  by_contra hnot
  obtain ⟨c, rest, rfl⟩ := List.exists_cons_of_ne_nil fun hempty => hnot (.inl hempty)
  exact Text.upper_ne_nil c (h hnot)

/-- The initials of a package are those of its parts. -/
theorem classInitials_eq (package : String) :
    classInitials package = String.ofList (initials (parts package)) := by
  have hkeeps (part : List Char) :
      (!isVersionWord part && !part.isEmpty) = decide ¬PassedOver part := by
    rw [Bool.eq_iff_iff]
    simp [PassedOver, ← isVersionWord_iff, and_comm]
  simp only [classInitials, initials, components_eq, List.filter_map, List.flatMap_map,
    List.filter_filter, Function.comp_def, isVersion, String.toList_ofList, hkeeps]

/-- Parts that are passed over can be put into a package. -/
theorem initials_of_interspersed {entries others : List (List Char)}
    (h : Interspersed PassedOver entries others) :
    initials (parts (ofParts others)) = initials (parts (ofParts entries)) := by
  unfold initials
  rw [filter_parts_of_interspersed h (by decide)]
  intro part hpart
  refine ⟨?_, decide_eq_false (not_not_intro hpart)⟩
  obtain rfl | hversion := hpart
  · exact List.not_mem_nil
  · exact hversion.not_stop

/-- The class prefix of a package is its initials if it has any, with one exception. -/
theorem classPrefix?_eq (package : String) :
    classPrefix? package =
      if initials (parts package) = [] then none
      else some (if classInitials package = "GPB" then "GPX" else classInitials package) := by
  have hempty : classInitials package = "" ↔ initials (parts package) = [] := by
    rw [classInitials_eq, String.ofList_eq_empty_iff]
  simp only [classPrefix?, hempty]
  split
  · rfl
  · exact (apply_ite some _ _ _).symm

theorem classPrefix?_eq_none_iff {package : String} :
    classPrefix? package = none ↔ initials (parts package) = [] := by
  rw [classPrefix?_eq]
  split
  · rename_i h
    exact iff_of_true rfl h
  · rename_i h
    exact iff_of_false (Option.some_ne_none _) h

theorem classPrefix?_eq_some_iff {package value : String} :
    classPrefix? package = some value ↔ initials (parts package) ≠ [] ∧
      value = if classInitials package = "GPB" then "GPX" else classInitials package := by
  rw [classPrefix?_eq]
  split
  · rename_i h
    exact iff_of_false nofun fun hsome => hsome.1 h
  · rename_i h
    rw [Option.some.injEq, and_iff_right h]
    exact eq_comm

/-- A package has no class prefix exactly if each of its parts is empty or a version. Otherwise the
class prefix is the initials of the other parts in a row, the one that is reserved being replaced,
so it is never empty and never that one. Empty parts and versions that are put into a package,
however many and wherever, do not change it, and the initials of two packages that are joined are
those of the one and then those of the other. -/
theorem classPrefix?_spec :
    (∀ package, classPrefix? package = none ↔ ∀ part ∈ parts package, part = [] ∨ Version part) ∧
    (∀ package value, classPrefix? package = some value ↔
      (∃ part ∈ parts package, ¬(part = [] ∨ Version part)) ∧
      value = if classInitials package = "GPB" then "GPX" else classInitials package) ∧
    (∀ package, classInitials package = String.ofList (initials (parts package))) ∧
    (∀ package, classPrefix? package ≠ some "" ∧ classPrefix? package ≠ some "GPB") ∧
    (∀ package, ofParts (parts package) = package) ∧
    (∀ entries others, Interspersed PassedOver entries others →
      classPrefix? (ofParts others) = classPrefix? (ofParts entries)) ∧
    ∀ package other,
      classInitials (package ++ "." ++ other) = classInitials package ++ classInitials other := by
  refine ⟨fun package => ?_, fun package value => ?_, classInitials_eq, fun package => ?_,
    ofParts_parts, fun entries others h => ?_, fun package other => ?_⟩
  · exact classPrefix?_eq_none_iff.trans initials_eq_nil_iff
  · rw [classPrefix?_eq_some_iff, ne_eq, initials_eq_nil_iff]
    simp [PassedOver]
  · simp only [ne_eq, classPrefix?_eq_some_iff, not_and]
    constructor
    · intro hinitials
      split
      · decide
      · rw [classInitials_eq]
        exact fun h => hinitials (String.ofList_eq_empty_iff.1 h.symm)
    · intro _
      split
      · decide
      · rename_i h
        exact Ne.symm h
  · simp only [classPrefix?, classInitials_eq, initials_of_interspersed h]
  · rw [classInitials_eq, classInitials_eq, classInitials_eq, parts_append, initials_append,
      String.ofList_append]

/-- Two packages whose initials, put together, are the reserved ones, and the package of both with a
version and empty parts put in. -/
theorem classPrefix?_spec_reserved :
    classPrefix? "google" = some "G" ∧ classPrefix? "protobuf.bar" = some "PB" ∧
      classInitials "google.protobuf.bar" = "GPB" ∧
      classPrefix? "google.protobuf.bar" = some "GPX" ∧
      classPrefix? "google.v1.protobuf..bar." = some "GPX" := by
  obtain ⟨-, hsome, -, -, -, hinserted, hjoined⟩ := classPrefix?_spec
  have hfirst : classInitials "google" = "G" := by decide +kernel
  have hsecond : classInitials "protobuf.bar" = "PB" := by decide +kernel
  have hboth : classInitials "google.protobuf.bar" = "GPB" := by
    rw [show "google.protobuf.bar" = "google" ++ "." ++ "protobuf.bar" from rfl, hjoined, hfirst,
      hsecond]
    rfl
  have hwhole : classPrefix? "google.protobuf.bar" = some "GPX" :=
    (hsome _ _).2 ⟨⟨"bar".toList, by decide +kernel⟩, (if_pos hboth).symm⟩
  have hmore : Interspersed PassedOver ["google".toList, "protobuf".toList, "bar".toList]
      ["google".toList, "v1".toList, "protobuf".toList, [], "bar".toList, []] := by
    refine .keep _ (.insert ?_ (.keep _ (.insert ?_ (.keep _ (.insert ?_ .nil))))) <;>
      decide +kernel
  exact ⟨by decide +kernel, by decide +kernel, hboth, hwhole, (hinserted _ _ hmore).trans hwhole⟩

/-- The upper case of a character may be several. -/
example : classPrefix? "ﬁle.ßv1.v1" = some "FISS" := by decide +kernel

end SchemaOptions
