import SchemaOptions.Naming.FilePath
import SchemaOptions.Naming.Identifier
import SchemaOptions.Naming.PascalCase
import SchemaOptions.Rule.Basic

/-!
# Java names

The Java package of a file is the file's own package below a fixed one; a file without a package
keeps what it has. The outer class of a file is named after the file.
-/

namespace SchemaOptions

/-- The package below which all Java packages stand. -/
structure JavaPackage where
  packagePrefix : String

namespace JavaPackage

/-- The Java packages below a package, if it is one. -/
def ofPrefix (packagePrefix : String) : Except EditError JavaPackage :=
  if Naming.isDottedIdentifier packagePrefix then .ok { packagePrefix }
  else .error (.configuration (.javaPrefix packagePrefix))

/-- The rule that gives every file with a package its Java package. -/
def rule (java : JavaPackage) : OptionRule :=
  OptionRule.ofText .javaPackage fun file =>
    if file.packageName = "" then none else some (java.packagePrefix ++ "." ++ file.packageName)

end JavaPackage

/-- The name of a file's outer class. -/
def javaOuterClassname (file : File) : String :=
  Naming.pascalCase (Naming.fileStem file.path) ++ "Proto"

/-- The rule that names the outer class of every file. -/
def javaOuterClassnameRule : OptionRule :=
  OptionRule.ofText .javaOuterClassname fun file => some (javaOuterClassname file)

end SchemaOptions
