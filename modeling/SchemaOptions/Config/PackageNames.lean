/-!
# Package names of single files

A table of package names, one for each file that is given one. Its entries are in ascending order of
the paths and no path occurs twice, so two tables with the same names are equal. A name that is
given later takes the place of an earlier one for the same file.
-/

namespace SchemaOptions

/-- Package names by the paths of files. -/
structure PackageNames where
  entries : List (String × String)
  sorted : entries.Pairwise fun a b => a.1 < b.1
deriving DecidableEq

namespace PackageNames

/-- The table without any names. -/
def empty : PackageNames := ⟨[], List.Pairwise.nil⟩

instance : Inhabited PackageNames := ⟨empty⟩

/-- Puts an entry in its place, instead of any for the same path. -/
def insertEntry (path name : String) : List (String × String) → List (String × String)
  | [] => [(path, name)]
  | entry :: rest =>
    if path < entry.1 then (path, name) :: entry :: rest
    else if path = entry.1 then (path, name) :: rest
    else entry :: insertEntry path name rest

/-- Nothing new comes in but the entry itself. -/
theorem mem_of_mem_insertEntry {path name : String} {entries : List (String × String)}
    {entry : String × String} (h : entry ∈ insertEntry path name entries) :
    entry = (path, name) ∨ entry ∈ entries := by
  induction entries with
  | nil => exact .inl (List.mem_singleton.1 h)
  | cons first rest ih =>
    rw [insertEntry] at h
    split at h
    · exact List.mem_cons.1 h
    · split at h
      · exact (List.mem_cons.1 h).imp_right (List.mem_cons_of_mem _)
      · rcases List.mem_cons.1 h with rfl | h
        · exact .inr List.mem_cons_self
        · exact (ih h).imp_right (List.mem_cons_of_mem _)

theorem pairwise_insertEntry {path name : String} {entries : List (String × String)}
    (h : entries.Pairwise fun a b => a.1 < b.1) :
    (insertEntry path name entries).Pairwise fun a b => a.1 < b.1 := by
  induction entries with
  | nil => exact List.pairwise_singleton _ _
  | cons first rest ih =>
    obtain ⟨hfirst, hrest⟩ := List.pairwise_cons.1 h
    rw [insertEntry]
    split
    · rename_i hlt
      refine List.pairwise_cons.2 ⟨fun entry hentry => ?_, h⟩
      rcases List.mem_cons.1 hentry with rfl | hentry
      · exact hlt
      · exact String.lt_trans hlt (hfirst entry hentry)
    · split
      · rename_i heq
        exact List.pairwise_cons.2 ⟨fun entry hentry => heq ▸ hfirst entry hentry, hrest⟩
      · rename_i hlt hne
        refine List.pairwise_cons.2 ⟨fun entry hentry => ?_, ih hrest⟩
        rcases mem_of_mem_insertEntry hentry with rfl | hentry
        · exact String.not_le.1 fun hle => hne (String.le_antisymm hle (String.not_lt.1 hlt))
        · exact hfirst entry hentry

/-- The table with a name for a file. -/
def insert (names : PackageNames) (path name : String) : PackageNames :=
  ⟨insertEntry path name names.entries, pairwise_insertEntry names.sorted⟩

/-- The table of a list of names, in which the last for a path counts. -/
def ofList (entries : List (String × String)) : PackageNames :=
  entries.foldl (fun names entry => names.insert entry.1 entry.2) empty

end PackageNames

end SchemaOptions
