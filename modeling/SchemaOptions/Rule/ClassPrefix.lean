import SchemaOptions.Naming.Package
import SchemaOptions.Rule.Basic
import SchemaOptions.Text.UpperCase

/-!
# Class prefixes

Objective-C has no namespaces, so the classes of a file share a prefix: the initials of its package
in upper case, versions not counted. One prefix belongs to the runtime library and is replaced. A
file whose package has no initials must not have a prefix at all.
-/

namespace SchemaOptions

/-- The prefix that no file may have. -/
def reservedClassPrefix : String := "GPB"

/-- The prefix that takes the place of the reserved one. -/
def replacedClassPrefix : String := "GPX"

/-- The initials of a package in upper case, versions not counted. -/
def classInitials (package : String) : String :=
  String.ofList <|
    ((Naming.components package).filter (!Naming.isVersion ·)).flatMap fun component =>
      component.toList.head?.elim [] Text.upper

/-- The class prefix of a package; nothing if it has no initials. -/
def classPrefix? (package : String) : Option String :=
  let initials := classInitials package
  if initials = "" then none
  else if initials = reservedClassPrefix then some replacedClassPrefix
  else some initials

/-- The rule that gives every file its class prefix, or takes it away. -/
def objcClassPrefixRule : OptionRule where
  slot := .text .objcClassPrefix
  target := fun file =>
    match classPrefix? file.packageName with
    | some s => .ok (.set (.text s))
    | none => .ok .clear

end SchemaOptions
