import Mathlib.Algebra.BigOperators.Group.Finset.Basic
import Mathlib.Algebra.Ring.Nat
import SchemaOptions.SourceInfo

/-!
# Looking up and removing

A removal selects the locations of one address, or those of an address and of everything within it
(`Selection`). It takes away what looking up finds: the locations of the one address, or those of
each address within it (`Selection.removed_eq_found`). Looking up an address that was not selected
finds the same as before, and removals in a row come to one filter (`left_eq_filter`), so their
order does not matter and their counts add up to what went (`removals_agree_with_lookups`).
-/

namespace SchemaOptions.SourceInfo

/-! ## Locations with a property -/

section

variable (goes : Location → Bool) (locations : List Location)

/-- A removal counts what it takes away. -/
theorem removed_removeWhere : (removeWhere goes locations).removed = locations.countP goes := by
  have hlength := List.length_eq_countP_add_countP goes (l := locations)
  have hrest : (locations.filter (!goes ·)).length = locations.countP (¬goes ·) := by
    rw [← List.countP_eq_length_filter]
    exact List.countP_congr fun location _ => by simp
  simp only [removeWhere, hrest]
  omega

/-- A removal loses no location: those that went and those that stay are all there were. -/
theorem removed_add_length_rest :
    (removeWhere goes locations).removed + (removeWhere goes locations).rest.length =
      locations.length := by
  have hle := List.length_filter_le (!goes ·) locations
  simp only [removeWhere]
  omega

end

/-- Looking up finds the locations of an address, however often it occurs. -/
theorem length_lookup (path : SourcePath) (locations : List Location) :
    (lookup path locations).length = (locations.map Location.path).countP (· = path) := by
  rw [lookup, ← List.countP_eq_length_filter, List.countP_map]
  exact List.countP_congr fun location _ => beq_iff_eq.trans decide_eq_true_iff.symm

/-- There is a location of an address exactly if looking it up finds one. -/
theorem contains_eq_false_iff {path : SourcePath} {locations : List Location} :
    contains path locations = false ↔ lookup path locations = [] := by
  simp [contains, lookup]

/-! ## Selections -/

/-- What a removal takes away: the locations of an address, or those within it too. -/
inductive Selection where
  | exact (path : SourcePath)
  | subtree (path : SourcePath)
deriving DecidableEq

namespace Selection

/-- Whether the locations of an address are selected. -/
def Takes : Selection → SourcePath → Prop
  | .exact path, address => address = path
  | .subtree path, address => path <+: address

instance : (selection : Selection) → DecidablePred selection.Takes
  | .exact path => fun address => inferInstanceAs (Decidable (address = path))
  | .subtree path => fun address => inferInstanceAs (Decidable (path <+: address))

/-- Removes what is selected. -/
def remove : Selection → List Location → Removal
  | .exact path => removeExact path
  | .subtree path => removeSubtree path

/-- How many locations are found by looking up what is selected: the one address, or each of the
addresses within it that some location has. -/
def found : Selection → List Location → Nat
  | .exact path, locations => (lookup path locations).length
  | .subtree path, locations =>
    ∑ address ∈ (locations.map Location.path).toFinset with path <+: address,
      (lookup address locations).length

theorem remove_eq (selection : Selection) (locations : List Location) :
    selection.remove locations =
      removeWhere (fun location => decide (selection.Takes location.path)) locations := by
  cases selection with
  | exact path =>
    refine congrArg (removeWhere · locations) (funext fun location => ?_)
    exact Bool.eq_iff_iff.2 (beq_iff_eq.trans decide_eq_true_iff.symm)
  | subtree path =>
    refine congrArg (removeWhere · locations) (funext fun location => ?_)
    exact Bool.eq_iff_iff.2 (List.isPrefixOf_iff_prefix.trans decide_eq_true_iff.symm)

/-- What stays is what is not selected. -/
theorem rest_remove (selection : Selection) (locations : List Location) :
    (selection.remove locations).rest =
      locations.filter fun location => ¬selection.Takes location.path := by
  rw [remove_eq, removeWhere]
  exact List.filter_congr fun location _ => decide_not.symm

/-- What goes is what looking up finds. -/
theorem removed_eq_found (selection : Selection) (locations : List Location) :
    (selection.remove locations).removed = selection.found locations := by
  cases selection with
  | exact path =>
    rw [remove, removeExact, removed_removeWhere, found, lookup, List.countP_eq_length_filter]
  | subtree path =>
    -- The addresses are counted with repetition; one group of equal ones is one lookup.
    let paths := locations.map Location.path
    calc ((subtree path).remove locations).removed
        = locations.countP fun location => path.covers location.path :=
          removed_removeWhere _ _
      _ = (paths.filter path.covers).length := by
          rw [← List.countP_eq_length_filter, List.countP_map]
          rfl
      _ = ∑ address ∈ (paths.filter path.covers).toFinset,
            (paths.filter path.covers).countP (· = address) :=
          (List.sum_toFinset_count_eq_length _).symm
      _ = ∑ address ∈ paths.toFinset with path <+: address, (lookup address locations).length := by
          rw [List.toFinset_filter]
          refine Finset.sum_congr ?_ fun address hmem => ?_
          · exact Finset.filter_congr fun address _ => List.isPrefixOf_iff_prefix
          · have hcovers := List.isPrefixOf_iff_prefix.2 (Finset.mem_filter.1 hmem).2
            rw [List.countP_filter, length_lookup]
            refine List.countP_congr fun other _ => ?_
            simp only [Bool.and_eq_true, decide_eq_true_eq, and_iff_left_iff_imp]
            rintro rfl
            exact hcovers

/-- An address that is selected is gone. -/
theorem lookup_rest_of_takes {selection : Selection} {path : SourcePath}
    (h : selection.Takes path) (locations : List Location) :
    lookup path (selection.remove locations).rest = [] := by
  rw [rest_remove, lookup, List.filter_filter, List.filter_eq_nil_iff]
  intro location _ hboth
  obtain ⟨hpath, hstays⟩ := Bool.and_eq_true_iff.1 hboth
  rw [eq_of_beq hpath] at hstays
  exact of_decide_eq_true hstays h

/-- Any other address has the locations that it had. -/
theorem lookup_rest_of_not_takes {selection : Selection} {path : SourcePath}
    (h : ¬selection.Takes path) (locations : List Location) :
    lookup path (selection.remove locations).rest = lookup path locations := by
  rw [rest_remove, lookup, List.filter_filter]
  refine List.filter_congr fun location _ => ?_
  rw [Bool.and_eq_left_iff_imp]
  intro hpath
  rw [eq_of_beq hpath]
  exact decide_eq_true h

end Selection

/-! ## Removals in a row -/

/-- What is left by removals, one after the other. -/
def left (selections : List Selection) (locations : List Location) : List Location :=
  selections.foldl (fun locations selection => (selection.remove locations).rest) locations

/-- How many locations each of some removals takes away, one after the other. -/
def counts : List Selection → List Location → List Nat
  | [], _ => []
  | selection :: rest, locations =>
    (selection.remove locations).removed :: counts rest (selection.remove locations).rest

theorem left_append (selections others : List Selection) (locations : List Location) :
    left (selections ++ others) locations = left others (left selections locations) :=
  List.foldl_append

theorem counts_append (selections others : List Selection) (locations : List Location) :
    counts (selections ++ others) locations =
      counts selections locations ++ counts others (left selections locations) := by
  induction selections generalizing locations with
  | nil => rfl
  | cons selection rest ih => exact congrArg _ (ih _)

theorem length_counts (selections : List Selection) (locations : List Location) :
    (counts selections locations).length = selections.length := by
  induction selections generalizing locations with
  | nil => rfl
  | cons selection rest ih => exact congrArg _ (ih _)

/-- What removals in a row leave is what none of them selects. -/
theorem left_eq_filter (selections : List Selection) (locations : List Location) :
    left selections locations =
      locations.filter fun location =>
        ∀ selection ∈ selections, ¬selection.Takes location.path := by
  induction selections generalizing locations with
  | nil => simp [left]
  | cons selection rest ih =>
    show left rest (selection.remove locations).rest = _
    rw [ih, Selection.rest_remove, List.filter_filter]
    refine List.filter_congr fun location _ => ?_
    rw [← Bool.decide_and, decide_eq_decide, List.forall_mem_cons, and_comm]

/-- The counts of removals in a row and the number of locations that are left add up to the number
of locations there were. -/
theorem sum_counts_add_length_left (selections : List Selection) (locations : List Location) :
    (counts selections locations).sum + (left selections locations).length = locations.length := by
  induction selections generalizing locations with
  | nil => exact Nat.zero_add _
  | cons selection rest ih =>
    have hfirst := removed_add_length_rest
      (fun location => decide (selection.Takes location.path)) locations
    rw [← selection.remove_eq] at hfirst
    calc (counts (selection :: rest) locations).sum + (left (selection :: rest) locations).length
        = (selection.remove locations).removed +
            ((counts rest (selection.remove locations).rest).sum +
              (left rest (selection.remove locations).rest).length) := Nat.add_assoc ..
      _ = locations.length := by rw [ih, hfirst]

/-- What removals leave does not depend on their order. -/
theorem left_perm {selections others : List Selection} (h : others.Perm selections)
    (locations : List Location) : left others locations = left selections locations := by
  rw [left_eq_filter, left_eq_filter]
  refine List.filter_congr fun location _ => ?_
  simp only [h.mem_iff]

/-- Removals and lookups agree, at every point of a row of removals. Each removal counts what
looking up found of its selection just before it; just after it nothing of the selection is there,
and any other address has the locations that it had. The counts of all removals and the number of
locations that are left add up to the number of locations there were, and the same removals in
another order leave the same locations and have the same counts altogether. -/
theorem removals_agree_with_lookups (selections : List Selection) (locations : List Location) :
    (∀ earlier selection later, selections = earlier ++ selection :: later →
      let before := left earlier locations
      let after := left (earlier ++ [selection]) locations
      (counts selections locations)[earlier.length]? = some (selection.found before) ∧
      ∀ path,
        (selection.Takes path → contains path after = false ∧ lookup path after = []) ∧
        (¬selection.Takes path → contains path after = contains path before ∧
          lookup path after = lookup path before)) ∧
    (counts selections locations).sum + (left selections locations).length = locations.length ∧
    ∀ others, others.Perm selections →
      left others locations = left selections locations ∧
      (counts others locations).sum = (counts selections locations).sum := by
  refine ⟨?_, sum_counts_add_length_left selections locations, fun others hperm => ⟨?_, ?_⟩⟩
  · rintro earlier selection later rfl before after
    have hafter : after = (selection.remove before).rest := left_append ..
    refine ⟨?_, fun path => ⟨fun htakes => ?_, fun hnot => ?_⟩⟩
    · rw [counts_append, ← length_counts earlier locations, List.getElem?_append_right le_rfl,
        Nat.sub_self, ← selection.removed_eq_found]
      rfl
    · have hgone := Selection.lookup_rest_of_takes htakes before
      rw [hafter]
      exact ⟨contains_eq_false_iff.2 hgone, hgone⟩
    · have hkept := Selection.lookup_rest_of_not_takes hnot before
      rw [hafter]
      refine ⟨?_, hkept⟩
      rw [Bool.eq_iff_iff, ← not_iff_not, Bool.not_eq_true, Bool.not_eq_true,
        contains_eq_false_iff, contains_eq_false_iff, hkept]
  · exact left_perm hperm locations
  -- Which removal counts a location depends on the order, so only the sums can be compared.
  · have hothers := sum_counts_add_length_left others locations
    have hall := sum_counts_add_length_left selections locations
    rw [left_perm hperm] at hothers
    omega

/-- A subtree, an address within it and the whole file, in two orders, where two locations have one
address: the counts differ, but not what they add up to, and what is left is the same. -/
theorem removals_agree_with_lookups_overlapping :
    let selections : List Selection := [.subtree [8], .exact [8, 11], .subtree []]
    let others : List Selection := [.exact [8, 11], .subtree [], .subtree [8]]
    let locations : List Location :=
      [{ path := [] }, { path := [8] }, { path := [8, 11] },
        { path := [8, 11], leading := some "" }, { path := [80] }]
    let after := left [.subtree [8]] locations
    counts selections locations = [3, 0, 2] ∧ counts others locations = [2, 3, 0] ∧
      (Selection.subtree [8]).found locations = 3 ∧
      contains [8, 11] after = false ∧ lookup [80] after = lookup [80] locations ∧
      left others locations = left selections locations := by
  intro selections others locations after
  obtain ⟨hsteps, -, horder⟩ := removals_agree_with_lookups selections locations
  obtain ⟨hcount, hlookups⟩ := hsteps [] (.subtree [8]) [.exact [8, 11], .subtree []] rfl
  have hcounts : counts selections locations = [3, 0, 2] := by decide
  rw [hcounts] at hcount
  have hperm : others.Perm selections := by decide
  exact ⟨hcounts, by decide, (Option.some.inj hcount).symm,
    ((hlookups [8, 11]).1 (by decide)).1, ((hlookups [80]).2 (by decide)).2,
    (horder others hperm).1⟩

end SchemaOptions.SourceInfo
