import SchemaOptions.Naming.Identifier
import SchemaOptions.Naming.Package
import SchemaOptions.Rule.Basic

/-!
# Go packages

The Go package of a file is an import path: the prefix of the whole image, then the directory of the
file. If the last segment of that path would not do as a package name, the name follows after a
semicolon: the one that the file was given by hand, or else the short name of a package that ends in
a version.
-/

namespace SchemaOptions

/-- The start of all import paths, and the names that single files are given. Of several names for
one file the first in the list counts. -/
structure GoPackage where
  importPrefix : String
  overrides : List (String × String) := []

namespace GoPackage

/-- The import paths that start with a prefix, if import paths can start with it. -/
def ofPrefix (importPrefix : String) : Except EditError GoPackage :=
  match prefixFault? importPrefix with
  | some fault => .error (.configuration (.importPrefix importPrefix fault))
  | none => .ok { importPrefix }

/-- Gives files package names by hand, one after the other, up to the first that is no name. -/
def withOverrides : List (String × String) → GoPackage → Except EditError GoPackage
  | [], go => .ok go
  | (path, name) :: rest, go =>
    if Naming.isIdentifier name then
      withOverrides rest { go with overrides := (path, name) :: go.overrides }
    else
      .error (.configuration (.overrideName path name))

/-- The Go package of a file, with the name that it was given by hand if there is one. -/
def importPath (importPrefix : String) (given? : Option String) (file : File) :
    Except EditError String :=
  match pathFault? file.path with
  | some fault => .error (.file file.path (.path fault))
  | none =>
    let directory :=
      match Naming.directory? file.path with
      | some directory => importPrefix ++ "/" ++ directory
      | none => importPrefix
    match given?.or (Naming.versionedName? file.packageName) with
    | some name => .ok (directory ++ ";" ++ name)
    | none => .ok directory

/-- The rule that gives every file its Go package. -/
def rule (go : GoPackage) : OptionRule where
  slot := .text .goPackage
  target := fun file =>
    (importPath go.importPrefix (go.overrides.lookup file.path) file).map fun s => .set (.text s)

end GoPackage

end SchemaOptions
