import SchemaOptions.Proofs.Files
import SchemaOptions.Proofs.Naming
import SchemaOptions.Proofs.PascalCase
import SchemaOptions.Rule.Namespace

/-!
# The form of namespaces

A namespace is made of a package component by component, and it falls again into as many segments
when it is split at the language's mark, since a component in Pascal case holds no character of a
mark (`Naming.pieces_namespace`). The segments are what the components are in Pascal case, where
underscores are gone. So a segment is an identifier just if its component opens with a letter, not
counting underscores before it (`isIdentifier_segments_iff`). A package of proper identifiers can
have components that do not, and then a segment is empty or opens with a digit
(`not_isIdentifier_segments`).
-/

namespace SchemaOptions

/-! ## Splitting at a mark -/

namespace Naming

/-- The pieces of a text between the occurrences of a mark, after a number of characters that are
passed over. -/
def piecesAfter (mark : List Char) : Nat → List Char → List (List Char)
  | _, [] => [[]]
  | skip + 1, _ :: cs => piecesAfter mark skip cs
  | 0, c :: cs =>
    if mark.isPrefixOf (c :: cs) then [] :: piecesAfter mark (mark.length - 1) cs
    else (piecesAfter mark 0 cs).modifyHead (c :: ·)

/-- The pieces of a text between the occurrences of a mark, which are looked for from left to
right. -/
def pieces (mark text : String) : List String :=
  (piecesAfter mark.toList 0 text.toList).map String.ofList

theorem piecesAfter_append (mark passed rest : List Char) :
    piecesAfter mark passed.length (passed ++ rest) = piecesAfter mark 0 rest := by
  induction passed with
  | nil => rfl
  | cons c passed ih => exact ih

/-- A mark at the front ends an empty piece. -/
theorem piecesAfter_mark (c : Char) (cs rest : List Char) :
    piecesAfter (c :: cs) 0 (c :: cs ++ rest) = [] :: piecesAfter (c :: cs) 0 rest := by
  have hprefix : (c :: cs).isPrefixOf (c :: (cs ++ rest)) = true :=
    List.isPrefixOf_iff_prefix.2 ⟨rest, rfl⟩
  rw [List.cons_append, piecesAfter, if_pos hprefix, List.length_cons, Nat.add_sub_cancel,
    piecesAfter_append]

/-- What does not hold the first character of the mark belongs to the first piece. -/
theorem piecesAfter_piece {c : Char} {piece : List Char} (h : c ∉ piece) (cs rest : List Char) :
    piecesAfter (c :: cs) 0 (piece ++ rest) =
      (piecesAfter (c :: cs) 0 rest).modifyHead (piece ++ ·) := by
  induction piece with
  | nil => exact (List.modifyHead_id ▸ rfl)
  | cons first piece ih =>
    have hne : c ≠ first := List.ne_of_not_mem_cons h
    have hpiece : c ∉ piece := fun hmem => h (List.mem_cons_of_mem _ hmem)
    have hprefix : ¬(c :: cs).isPrefixOf (first :: (piece ++ rest)) = true := by
      rw [List.isPrefixOf_cons_cons, beq_eq_false_iff_ne.2 hne, Bool.false_and]
      exact Bool.false_ne_true
    rw [List.cons_append, piecesAfter, if_neg hprefix, ih hpiece, List.modifyHead_modifyHead]
    rfl

/-- Segments that do not hold the first character of a mark are the pieces of the text that they
make with the mark between them. -/
theorem piecesAfter_intercalate {c : Char} {cs : List Char} {segments : List (List Char)}
    (hne : segments ≠ []) (h : ∀ segment ∈ segments, c ∉ segment) :
    piecesAfter (c :: cs) 0 ((c :: cs).intercalate segments) = segments := by
  induction segments with
  | nil => exact absurd rfl hne
  | cons segment rest ih =>
    obtain ⟨hsegment, hrest⟩ := List.forall_mem_cons.1 h
    cases rest with
    | nil =>
      have hlast := piecesAfter_piece hsegment cs []
      rw [List.append_nil] at hlast
      rw [List.intercalate_singleton, hlast]
      exact congrArg (· :: []) (List.append_nil segment)
    | cons second others =>
      rw [List.intercalate_cons_cons, List.append_assoc, piecesAfter_piece hsegment,
        piecesAfter_mark, ih (List.cons_ne_nil _ _) hrest, List.modifyHead_cons, List.append_nil]

/-! ## Segments -/

/-- The characters of a text with a mark between its parts are those of the mark and the parts. -/
theorem mem_intercalate {mark : List Char} {parts : List (List Char)} {x : Char}
    (h : x ∈ mark.intercalate parts) : x ∈ mark ∨ ∃ part ∈ parts, x ∈ part := by
  induction parts with
  | nil => cases h
  | cons part rest ih =>
    cases rest with
    | nil =>
      rw [List.intercalate_singleton] at h
      exact .inr ⟨part, List.mem_cons_self, h⟩
    | cons second others =>
      rw [List.intercalate_cons_cons, List.mem_append, List.mem_append] at h
      obtain (hpart | hmark) | hrest := h
      · exact .inr ⟨part, List.mem_cons_self, hpart⟩
      · exact .inl hmark
      · obtain hmark | ⟨later, hmem, hx⟩ := ih hrest
        · exact .inl hmark
        · exact .inr ⟨later, List.mem_cons_of_mem _ hmem, hx⟩

/-- The marks of the languages. -/
def marks : List String := [".", "::", "\\"]

/-- A mark is made of characters that no letter or digit is, and NUL is none of them. -/
theorem not_isAlphanum_of_mem_mark {mark : String} (h : mark ∈ marks) :
    mark.toList ≠ [] ∧ ∀ c ∈ mark.toList, c.isAlphanum = false ∧ c ≠ '\x00' := by
  have hmarks : ∀ mark ∈ marks, mark.toList ≠ [] ∧
      (mark.toList.all fun c => !c.isAlphanum && c != '\x00') = true := by decide
  obtain ⟨hne, hall⟩ := hmarks mark h
  refine ⟨hne, fun c hmem => ?_⟩
  have hc := List.all_eq_true.1 hall c hmem
  rwa [Bool.and_eq_true, Bool.not_eq_true', bne_iff_ne] at hc

/-- Whether a name opens with a letter, underscores before it not counted. -/
def opensWithLetter (name : String) : Bool :=
  (name.toList.find? (· != '_')).any Char.isAlpha

/-- A component of a package of identifiers becomes one again if it opens with a letter. -/
theorem isIdentifier_pascalCase_iff {component : String} (h : isIdentifier component) :
    isIdentifier (pascalCase component) ↔ opensWithLetter component := by
  rw [isIdentifier, pascalCase, String.toList_ofList]
  exact isIdentifierWord_pascalChars_iff (isIdentifierPart_of_mem h)

/-- A package of identifiers has components, and none of its parts is left out of them. -/
theorem components_ne_nil {package : String} (h : isDottedIdentifier package) :
    components package ≠ [] := by
  have hall : (package.toList.splitOn '.').filter (!·.isEmpty) = package.toList.splitOn '.' := by
    refine List.filter_eq_self.2 fun word hmem => ?_
    cases word with
    | nil => exact nomatch List.all_eq_true.1 h [] hmem
    | cons => rfl
  rw [components, hall]
  exact fun hnil => List.splitOn_ne_nil '.' package.toList (List.map_eq_nil_iff.1 hnil)

/-- The namespace of a package: its components in Pascal case with a mark between each two. -/
def namespaceOf (mark package : String) : String :=
  mark.intercalate ((components package).map pascalCase)

/-- In a namespace of identifiers the segments are letters and digits. -/
theorem isAlphanum_of_mem_segment {package segment : String} (h : isDottedIdentifier package)
    (hmem : segment ∈ (components package).map pascalCase) :
    ∀ c ∈ segment.toList, c.isAlphanum = true := by
  obtain ⟨component, hcomponent, rfl⟩ := List.mem_map.1 hmem
  rw [pascalCase, String.toList_ofList]
  exact isAlphanum_of_mem_pascalChars
    (isIdentifierPart_of_mem (isIdentifier_of_mem_components h hcomponent))

/-- The segments of the namespace of a package of identifiers are its components in Pascal case. -/
theorem pieces_namespaceOf {mark package : String} (hmark : mark ∈ marks)
    (h : isDottedIdentifier package) :
    pieces mark (namespaceOf mark package) = (components package).map pascalCase := by
  obtain ⟨hne, hchars⟩ := not_isAlphanum_of_mem_mark hmark
  obtain ⟨c, cs, hmark⟩ := List.exists_cons_of_ne_nil hne
  rw [pieces, namespaceOf, String.toList_intercalate, hmark, piecesAfter_intercalate]
  · rw [List.map_map]
    exact (List.map_congr_left fun segment _ => String.ofList_toList).trans (List.map_id _)
  · exact fun hnil =>
      components_ne_nil h (List.map_eq_nil_iff.1 (List.map_eq_nil_iff.1 hnil))
  · rw [List.forall_mem_map]
    intro segment hsegment hc
    have hmem : c ∈ mark.toList := hmark ▸ List.mem_cons_self
    have halphanum := isAlphanum_of_mem_segment h hsegment c hc
    rw [(hchars c hmem).1] at halphanum
    cases halphanum

/-- There is no NUL character in the namespace of a package of identifiers. -/
theorem nul_not_mem_namespaceOf {mark package : String} (hmark : mark ∈ marks)
    (h : isDottedIdentifier package) : '\x00' ∉ (namespaceOf mark package).toList := by
  intro hnul
  rw [namespaceOf, String.toList_intercalate] at hnul
  obtain hmem | ⟨chars, hchars, hmem⟩ := mem_intercalate hnul
  · exact ((not_isAlphanum_of_mem_mark hmark).2 _ hmem).2 rfl
  · obtain ⟨segment, hsegment, rfl⟩ := List.mem_map.1 hchars
    cases isAlphanum_of_mem_segment h hsegment _ hmem

end Naming

/-! ## What the rules store -/

/-- The rules that make a namespace of a package, each with the mark of its language. -/
def namespaceRules : List (OptionRule × String) :=
  [(csharpNamespaceRule, "."), (rubyPackageRule, "::"), (phpNamespaceRule, "\\")]

namespace OptionRule

variable {rule : OptionRule} {mark : String} {file : File}

theorem eq_ofText_of_mem_namespaceRules (h : (rule, mark) ∈ namespaceRules) :
    mark ∈ Naming.marks ∧
      ∃ slot, rule = ofText slot fun file => joinedNamespace? mark file.packageName := by
  simp only [namespaceRules, List.mem_cons, Prod.mk.injEq, List.not_mem_nil, or_false] at h
  obtain ⟨rfl, rfl⟩ | ⟨rfl, rfl⟩ | ⟨rfl, rfl⟩ := h
  · exact ⟨by decide, .csharpNamespace, rfl⟩
  · exact ⟨by decide, .rubyPackage, rfl⟩
  · exact ⟨by decide, .phpNamespace, rfl⟩

/-- In a file with a package of identifiers such a rule asks for the namespace of the package, and
nothing stands against it. -/
theorem error?_namespaceRule (hrule : (rule, mark) ∈ namespaceRules)
    (hknown : file.isWellKnown = false) (hpackage : Naming.isDottedIdentifier file.packageName) :
    rule.error? file = none ∧
      rule.demand file = .ok (some (some (.text (Naming.namespaceOf mark file.packageName)))) := by
  obtain ⟨hmark, slot, rfl⟩ := eq_ofText_of_mem_namespaceRules hrule
  have hjoined : joinedNamespace? mark file.packageName =
      some (Naming.namespaceOf mark file.packageName) := by
    unfold joinedNamespace?
    split
    · rename_i hnil
      exact absurd hnil (Naming.components_ne_nil hpackage)
    · rfl
  exact error?_ofText hknown hjoined (Naming.nul_not_mem_namespaceOf hmark hpackage)

/-- A run of such a rule stores the namespace of the package. -/
theorem readSlot_namespaceRule (hrule : (rule, mark) ∈ namespaceRules)
    (hknown : file.isWellKnown = false) (hpackage : Naming.isDottedIdentifier file.packageName)
    {workspace done : Workspace} {index : Nat}
    (hfile : workspace.image.files[index]? = some file)
    (hrun : rule.modifier workspace = .ok () done) :
    ∃ after, done.image.files[index]? = some after ∧
      after.readSlot rule.slot = some (.text (Naming.namespaceOf mark file.packageName)) := by
  obtain ⟨hok, hdemand⟩ := error?_namespaceRule hrule hknown hpackage
  obtain ⟨-, rfl⟩ := modifier_eq_ok_iff.1 hrun
  refine ⟨rule.edited file, ?_, readSlot_edited hok hdemand⟩
  rw [applied, List.getElem?_map, hfile, Option.map_some]

/-- The three rules do not fail in a file with a package of identifiers. What they store there falls
into as many segments as the package has components, and all of them are identifiers just if every
component opens with a letter, underscores before it not counted. -/
theorem isIdentifier_segments_iff (hrule : (rule, mark) ∈ namespaceRules)
    (hknown : file.isWellKnown = false) (hpackage : Naming.isDottedIdentifier file.packageName) :
    (∀ sweeper, ∃ changed left,
      editSlot rule.slot rule.target (file, sweeper) = .ok changed left) ∧
    ∀ (workspace done : Workspace) (index : Nat), workspace.image.files[index]? = some file →
      rule.modifier workspace = .ok () done →
      ∃ after value, done.image.files[index]? = some after ∧
        after.readSlot rule.slot = some (.text value) ∧
        (Naming.pieces mark value).length = (Naming.components file.packageName).length ∧
        ((∀ segment ∈ Naming.pieces mark value, Naming.isIdentifier segment) ↔
          ∀ component ∈ Naming.components file.packageName, Naming.opensWithLetter component) := by
  refine ⟨fun sweeper => ?_, fun workspace done index hfile hrun => ?_⟩
  · exact ⟨_, _, editSlot_of_ok sweeper (error?_namespaceRule hrule hknown hpackage).1⟩
  · obtain ⟨after, hafter, hread⟩ := readSlot_namespaceRule hrule hknown hpackage hfile hrun
    refine ⟨after, _, hafter, hread, ?_, ?_⟩
    · rw [Naming.pieces_namespaceOf (eq_ofText_of_mem_namespaceRules hrule).1 hpackage,
        List.length_map]
    · rw [Naming.pieces_namespaceOf (eq_ofText_of_mem_namespaceRules hrule).1 hpackage,
        List.forall_mem_map]
      refine forall_congr' fun component => imp_congr_right fun hmem => ?_
      exact Naming.isIdentifier_pascalCase_iff
        (Naming.isIdentifier_of_mem_components hpackage hmem)

/-- A package with underscores before and within its components, all of which open with a letter. -/
theorem isIdentifier_segments_iff_underscores :
    let file : File := { name := some "a.proto", package := some "acme._weather_api.v1" }
    ∃ done after value, rubyPackageRule.modifier { image := ⟨[file]⟩ } = .ok () done ∧
      done.image.files[0]? = some after ∧
      after.readSlot (.text .rubyPackage) = some (.text value) ∧
      (Naming.pieces "::" value).length = 3 ∧
      ∀ segment ∈ Naming.pieces "::" value, Naming.isIdentifier segment := by
  intro file
  have hrule : (rubyPackageRule, "::") ∈ namespaceRules :=
    List.mem_cons_of_mem _ List.mem_cons_self
  have hpackage : Naming.isDottedIdentifier file.packageName := by decide
  obtain ⟨done, hrun⟩ : ∃ done, rubyPackageRule.modifier { image := ⟨[file]⟩ } = .ok () done := by
    refine ⟨_, modifier_of_ok fun other hmem => ?_⟩
    obtain rfl := List.mem_singleton.1 hmem
    exact (error?_namespaceRule hrule rfl hpackage).1
  obtain ⟨after, value, hafter, hread, hlength, hsegments⟩ :=
    (isIdentifier_segments_iff hrule rfl hpackage).2 { image := ⟨[file]⟩ } done 0 rfl hrun
  exact ⟨done, after, value, hrun, hafter, hread, hlength.trans (by decide),
    hsegments.2 (by decide)⟩

/-- Of a component of underscores an empty segment is made, and of one with a digit behind them a
segment that opens with the digit. -/
theorem not_isIdentifier_segments :
    let digit : File := { name := some "a.proto", package := some "_1a" }
    let bare : File := { name := some "a.proto", package := some "acme._.v1" }
    (Naming.isDottedIdentifier "_1a" ∧ csharpNamespaceRule.modifier { image := ⟨[digit]⟩ } =
      .ok () {
        image := ⟨[{ digit with options := some { csharpNamespace := some "1a" } }]⟩
        sweeper := Sweeper.empty.touch (digit.slotTouch (.text .csharpNamespace)) } ∧
      Naming.pieces "." "1a" = ["1a"] ∧ ¬Naming.isIdentifier "1a") ∧
    Naming.isDottedIdentifier "acme._.v1" ∧ rubyPackageRule.modifier { image := ⟨[bare]⟩ } =
      .ok () {
        image := ⟨[{ bare with options := some { rubyPackage := some "Acme::::V1" } }]⟩
        sweeper := Sweeper.empty.touch (bare.slotTouch (.text .rubyPackage)) } ∧
      Naming.pieces "::" "Acme::::V1" = ["Acme", "", "V1"] ∧ ¬Naming.isIdentifier "" := by
  exact ⟨⟨by decide, rfl, by decide, by decide⟩, by decide, rfl, by decide, by decide⟩

end OptionRule

end SchemaOptions
