import SchemaOptions.Naming.Version

/-!
# Package names

A package is a list of components with full stops between them. Empty components count for nothing,
so a stray full stop never changes what is derived from a package. A package that ends in a version
has a short name for its whole: the component before the version, joined with it.
-/

namespace SchemaOptions.Naming

/-- The components of a package that are not empty, in order. -/
def components (package : String) : List String :=
  ((package.toList.splitOn '.').filter (!·.isEmpty)).map String.ofList

/-- The last component before a version and the version, joined; nothing for a package that does
not end in a version or has nothing before it. -/
def versionedName? (package : String) : Option String :=
  match (components package).reverse with
  | version :: name :: _ => if isVersion version then some (name ++ version) else none
  | _ => none

end SchemaOptions.Naming
