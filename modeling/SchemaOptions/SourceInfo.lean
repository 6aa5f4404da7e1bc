import SchemaOptions.File.Location

/-!
# Looking into source code information

The locations of a file, by the address of the element that they belong to. Several locations may
have one address. Removal takes away the locations of one address, or those of an address and of
everything within it, and tells how many went; what stays keeps its order.
-/

namespace SchemaOptions.SourceInfo

/-- The locations with an address, in order. -/
def lookup (path : SourcePath) (locations : List Location) : List Location :=
  locations.filter (·.path == path)

/-- Whether some location has an address. -/
def contains (path : SourcePath) (locations : List Location) : Bool :=
  locations.any (·.path == path)

/-- How many locations went, and those that stayed. -/
structure Removal where
  removed : Nat
  rest : List Location

/-- Removes the locations with a property. -/
def removeWhere (goes : Location → Bool) (locations : List Location) : Removal :=
  let rest := locations.filter (!goes ·)
  ⟨locations.length - rest.length, rest⟩

/-- Removes the locations with an address. -/
def removeExact (path : SourcePath) : List Location → Removal :=
  removeWhere (·.path == path)

/-- Removes the locations with an address or one within it. -/
def removeSubtree (path : SourcePath) : List Location → Removal :=
  removeWhere fun location => path.covers location.path

end SchemaOptions.SourceInfo
