import SchemaOptions.Command.Directory

/-!
# Reading and writing in a directory

Content can be written to a path if there is not too much of it and the path leads to a place that
takes any (`isSome_write?_iff`), whatever was written before. Then either a file of the directory
changes, and no other file, or what is around it does (`write?_eq_some_iff`). What is read at the
path afterwards is the content, or nothing at all if a device took it (`entryAt_of_write?`).
-/

namespace SchemaOptions.Directory

variable {around : Surroundings} {directory after other : Directory around}
variable {path name : String} {content : List UInt8}

/-! ## Files of the directory -/

theorem get?_put (directory : Directory around) (name : String) (content : List UInt8) :
    (directory.put name content).get? name = some content :=
  List.lookup_cons_self

/-- Leaving out the entries of one name leaves those of any other. -/
theorem lookup_filter_of_ne (files : List (String × List UInt8)) {name other : String}
    (hne : other ≠ name) :
    (files.filter (·.1 != name)).lookup other = files.lookup other := by
  induction files with
  | nil => rfl
  | cons entry files ih =>
    obtain ⟨first, content⟩ := entry
    rw [List.filter_cons]
    by_cases hfirst : first = name
    · have hhead : (other == first) = false := beq_eq_false_iff_ne.2 (hfirst ▸ hne)
      have hleft : (first != name) = false := bne_eq_false_iff_eq.2 hfirst
      simp only [hleft, Bool.false_eq_true, if_false, List.lookup_cons, hhead, ih]
    · have hkept : (first != name) = true := bne_iff_ne.2 hfirst
      simp only [hkept, if_true, List.lookup_cons, ih]

theorem get?_put_of_ne {other : String} (hne : other ≠ name) :
    (directory.put name content).get? other = directory.get? other := by
  have hhead : (other == name) = false := beq_eq_false_iff_ne.2 hne
  rw [get?, put, List.lookup_cons, hhead]
  exact lookup_filter_of_ne directory.files hne

theorem entryAt_of_get? (hpath : around.destination path = .name name)
    (hget : directory.get? name = some content) : directory.entryAt path = .file content := by
  simp only [entryAt, hpath, hget]

/-! ## Writing -/

/-- What a write does: it changes a file of the directory, or what is around it. -/
theorem write?_eq_some_iff :
    directory.write? path content = some after ↔ content.length ≤ maxContent ∧
      ((∃ name, around.destination path = .name name ∧ after = directory.put name content) ∨
        (around.destination path = .outside ∧ around.takes path = true ∧
          after = directory.putOutside path content)) := by
  unfold write?
  by_cases hlength : maxContent < content.length
  · rw [if_pos hlength]
    exact iff_of_false nofun fun h => Nat.not_le_of_lt hlength h.1
  · rw [if_neg hlength, and_iff_right (Nat.le_of_not_lt hlength)]
    cases hpath : around.destination path with
    | name name =>
      simp only [Option.some.injEq, Destination.name.injEq, reduceCtorEq, false_and, or_false]
      exact ⟨fun h => ⟨name, rfl, h.symm⟩, fun ⟨_, hname, h⟩ => by rw [h, hname]⟩
    | outside =>
      simp only [reduceCtorEq, false_and, exists_false, false_or, true_and]
      cases around.takes path <;> simp [eq_comm]
    | directory => simp
    | nowhere => simp

/-- Whether content can be written depends on the path and on how much it is. -/
theorem isSome_write?_iff :
    (directory.write? path content).isSome = true ↔
      content.length ≤ maxContent ∧ around.accepts path = true := by
  rw [Option.isSome_iff_exists]
  simp only [write?_eq_some_iff, exists_and_left, Surroundings.accepts]
  cases around.destination path <;> simp

theorem write?_of_name (hpath : around.destination path = .name name)
    (hlength : content.length ≤ maxContent) :
    directory.write? path content = some (directory.put name content) :=
  write?_eq_some_iff.2 ⟨hlength, .inl ⟨name, hpath, rfl⟩⟩

/-- Whether bytes can be written to a path does not depend on what is in the directory and what is
around it. -/
theorem isSome_write?_eq (directory other : Directory around) (path : String)
    (content : List UInt8) :
    (other.write? path content).isSome = (directory.write? path content).isSome :=
  Bool.eq_iff_iff.2 (isSome_write?_iff.trans isSome_write?_iff.symm)

/-- What was written to a path stands there, or no bytes do if a device took it. -/
theorem entryAt_of_write? (h : directory.write? path content = some after) :
    content.length ≤ maxContent ∧
      (after.entryAt path = .file content ∨ after.entryAt path = .file []) := by
  obtain ⟨hlength, ⟨name, hpath, rfl⟩ | ⟨hpath, htakes, rfl⟩⟩ := write?_eq_some_iff.1 h
  · exact ⟨hlength, .inl (entryAt_of_get? hpath (get?_put ..))⟩
  · refine ⟨hlength, ?_⟩
    simp only [entryAt, hpath]
    exact around.entryAt_write directory.outside path content htakes

/-- What is written to a path is written to the file to which it leads, if it leads to one, and
nothing else changes. Otherwise no file changes, but what is around the directory does. -/
theorem get?_of_write? (h : directory.write? path content = some after) :
    (∀ name, around.destination path = .name name → after.get? name = some content ∧
      (∀ other, other ≠ name → after.get? other = directory.get? other) ∧
      after.outside = directory.outside) ∧
    ((∀ name, around.destination path ≠ .name name) → after.files = directory.files ∧
      after.outside = around.write directory.outside path content) := by
  obtain ⟨-, ⟨name, hpath, rfl⟩ | ⟨hpath, -, rfl⟩⟩ := write?_eq_some_iff.1 h
  · refine ⟨fun name' hname => ?_, fun hnone => absurd hpath (hnone name)⟩
    cases hpath.symm.trans hname
    exact ⟨get?_put .., fun other hne => get?_put_of_ne hne, rfl⟩
  · refine ⟨fun name hname => ?_, fun _ => ⟨rfl, rfl⟩⟩
    cases hpath.symm.trans hname

end SchemaOptions.Directory
