import SchemaOptions.Naming.Package
import SchemaOptions.Naming.PascalCase
import SchemaOptions.Rule.Basic

/-!
# Namespaces

C#, Ruby and PHP name a file's namespace after its package: each component in Pascal case, with the
language's own mark between them. A file whose package has no components keeps what it has.
-/

namespace SchemaOptions

/-- The components of a package in Pascal case with a mark between each two; nothing for a package
without components. -/
def joinedNamespace? (mark package : String) : Option String :=
  match Naming.components package with
  | [] => none
  | components => some (mark.intercalate (components.map Naming.pascalCase))

/-- The rule that gives every file with a package its C# namespace. -/
def csharpNamespaceRule : OptionRule :=
  OptionRule.ofText .csharpNamespace fun file => joinedNamespace? "." file.packageName

/-- The rule that gives every file with a package its Ruby module. -/
def rubyPackageRule : OptionRule :=
  OptionRule.ofText .rubyPackage fun file => joinedNamespace? "::" file.packageName

/-- The rule that gives every file with a package its PHP namespace. -/
def phpNamespaceRule : OptionRule :=
  OptionRule.ofText .phpNamespace fun file => joinedNamespace? "\\" file.packageName

end SchemaOptions
