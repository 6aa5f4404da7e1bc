import SchemaOptions.Proofs.Joined
import SchemaOptions.Proofs.Version

/-!
# The parts of a package

A package is parts with full stops between them (`ofParts_parts`), and the parts that are not empty
are its components. So empty parts can be put in anywhere and nothing that is derived from the
components changes (`Interspersed`, `components_of_interspersed`). A package has a short name just
if the last of two or more components belongs to the grammar of versions
(`versions_match_grammar`).
-/

namespace SchemaOptions.Naming

/-! ## Entries put in between -/

/-- Whether a list is another one with entries of a kind put in, any number of them anywhere. -/
inductive Interspersed {α : Type} (kind : α → Prop) : List α → List α → Prop where
  | nil : Interspersed kind [] []
  | keep (a : α) {entries others : List α} (rest : Interspersed kind entries others) :
      Interspersed kind (a :: entries) (a :: others)
  | insert {a : α} (h : kind a) {entries others : List α}
      (rest : Interspersed kind entries others) : Interspersed kind entries (a :: others)

/-- Entries of which nothing comes can be put in. -/
theorem Interspersed.flatMap_eq {α β : Type} {kind : α → Prop} {entries others : List α}
    {f : α → List β} (h : Interspersed kind entries others) (hkind : ∀ a, kind a → f a = []) :
    others.flatMap f = entries.flatMap f := by
  induction h with
  | nil => rfl
  | keep a _ ih => rw [List.flatMap_cons, List.flatMap_cons, ih]
  | insert ha _ ih => rw [List.flatMap_cons, hkind _ ha, List.nil_append, ih]

/-! ## Parts -/

/-- The parts into which a package falls at its full stops, the empty ones included. -/
def parts (package : String) : List (List Char) :=
  package.toList.splitOn '.'

/-- The package of some parts, with a full stop between each two. -/
def ofParts (parts : List (List Char)) : String :=
  String.ofList (['.'].intercalate parts)

/-- Every package is made of its parts. -/
theorem ofParts_parts (package : String) : ofParts (parts package) = package := by
  rw [ofParts, parts, List.intercalate_splitOn, String.ofList_toList]

theorem parts_append (package other : String) :
    parts (package ++ "." ++ other) = parts package ++ parts other := by
  rw [parts, toList_joined '.' rfl, List.splitOn_append_cons_self]
  rfl

/-- What the parts of a package hold, apart from the empty ones, is what they hold each on its own;
a part may fall into others, for nothing forbids it full stops. -/
theorem filter_parts_ofParts {keeps : List Char → Bool} (hempty : keeps [] = false)
    (entries : List (List Char)) :
    (parts (ofParts entries)).filter keeps =
      entries.flatMap fun entry => (entry.splitOn '.').filter keeps := by
  unfold parts ofParts
  rw [String.toList_ofList]
  induction entries with
  | nil => simp [hempty]
  | cons entry rest ih =>
    cases rest with
    | nil => simp
    | cons next rest =>
      rw [List.intercalate_cons_cons, List.append_assoc, List.singleton_append,
        List.splitOn_append_cons_self, List.filter_append, ih]
      rfl

/-- Parts of which nothing is kept can be put into a package. -/
theorem filter_parts_of_interspersed {kind : List Char → Prop} {entries others : List (List Char)}
    {keeps : List Char → Bool} (h : Interspersed kind entries others) (hempty : keeps [] = false)
    (hkind : ∀ part, kind part → '.' ∉ part ∧ keeps part = false) :
    (parts (ofParts others)).filter keeps = (parts (ofParts entries)).filter keeps := by
  rw [filter_parts_ofParts hempty, filter_parts_ofParts hempty]
  refine h.flatMap_eq fun part hpart => ?_
  obtain ⟨hstop, hkept⟩ := hkind part hpart
  rw [List.splitOn_eq_singleton hstop, List.filter_singleton, hkept]
  rfl

theorem components_eq (package : String) :
    components package = ((parts package).filter (!·.isEmpty)).map String.ofList := rfl

theorem map_toList_components (package : String) :
    (components package).map String.toList = (parts package).filter (!·.isEmpty) := by
  simp [components_eq, Function.comp_def]

/-- Empty parts that are put into a package leave its components as they are. -/
theorem components_of_interspersed {entries others : List (List Char)}
    (h : Interspersed (· = []) entries others) :
    components (ofParts others) = components (ofParts entries) := by
  rw [components_eq, components_eq, filter_parts_of_interspersed h rfl]
  rintro part rfl
  exact ⟨List.not_mem_nil, rfl⟩

/-! ## Versions -/

/-- A package has a short name if the last of its parts that are not empty is a version and not the
only one of them. -/
theorem versionedName?_eq_some_iff_parts {package name : String} :
    versionedName? package = some name ↔ ∃ front last version,
      (parts package).filter (!·.isEmpty) = front ++ [last, version] ∧ Version version ∧
        name.toList = last ++ version := by
  rw [versionedName?_eq_some_iff]
  constructor
  · rintro ⟨front, last, version, hcomponents, hversion, rfl⟩
    refine ⟨front.map String.toList, last.toList, version.toList, ?_, isVersionWord_iff.1 hversion,
      String.toList_append⟩
    rw [← map_toList_components, hcomponents, List.map_append]
    rfl
  · rintro ⟨front, last, version, hparts, hversion, hname⟩
    refine ⟨front.map String.ofList, String.ofList last, String.ofList version, ?_, ?_, ?_⟩
    · rw [components_eq, hparts, List.map_append]
      rfl
    · rw [isVersion, String.toList_ofList]
      exact isVersionWord_iff.2 hversion
    · rw [← String.toList_inj, hname, String.toList_append, String.toList_ofList,
        String.toList_ofList]

/-- The version components are the texts of the grammar. A package has a short name exactly if at
least two of its parts are not empty and the last of these is a version; then it is the last two,
joined. Empty parts that are put into a package, however many and wherever, do not change it. -/
theorem versions_match_grammar :
    (∀ text, isVersion text = true ↔ Version text.toList) ∧
    (∀ package name, versionedName? package = some name ↔ ∃ front last version,
      (parts package).filter (!·.isEmpty) = front ++ [last, version] ∧ Version version ∧
        name.toList = last ++ version) ∧
    (∀ package, ofParts (parts package) = package) ∧
    ∀ entries others, Interspersed (· = []) entries others →
      versionedName? (ofParts others) = versionedName? (ofParts entries) := by
  refine ⟨fun text => isVersionWord_iff, fun package name => versionedName?_eq_some_iff_parts,
    ofParts_parts, fun entries others h => ?_⟩
  unfold versionedName?
  rw [components_of_interspersed h]

/-- A version with digits of two scripts, in a package with full stops at its ends and three in a
row. -/
theorem versions_match_grammar_stops :
    isVersion "v1p٢beta" = true ∧ versionedName? "acme.v1p٢beta" = some "acmev1p٢beta" ∧
      versionedName? ".acme...v1p٢beta." = some "acmev1p٢beta" := by
  have hversion : Version "v1p٢beta".toList := by decide +kernel
  have hname : versionedName? "acme.v1p٢beta" = some "acmev1p٢beta" :=
    (versions_match_grammar.2.1 _ _).2 ⟨[], "acme".toList, _, by decide +kernel, hversion, rfl⟩
  have hstops : Interspersed (· = []) ["acme".toList, "v1p٢beta".toList]
      [[], "acme".toList, [], [], "v1p٢beta".toList, []] := by
    refine .insert ?_ (.keep _ (.insert ?_ (.insert ?_ (.keep _ (.insert ?_ .nil))))) <;> rfl
  exact ⟨(versions_match_grammar.1 _).2 hversion, hname,
    (versions_match_grammar.2.2.2 _ _ hstops).trans hname⟩

end SchemaOptions.Naming
