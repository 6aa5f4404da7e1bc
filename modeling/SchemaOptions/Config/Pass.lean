import SchemaOptions.Config.Basic
import SchemaOptions.Rule.ClassPrefix
import SchemaOptions.Rule.GoPackage
import SchemaOptions.Rule.JavaPackage
import SchemaOptions.Rule.Namespace

/-!
# The pass of a configuration

A configuration stands for one pass over an image: the rules of its enabled sections in a fixed
order, and a sweep at the end. A section that cannot be put into effect is found before anything
runs.
-/

namespace SchemaOptions

/-- The rule of a section on Go packages. -/
def GoSection.rule (goSection : GoSection) : Except EditError OptionRule := do
  let go ← GoPackage.ofPrefix goSection.importPrefix
  return (← go.withOverrides goSection.overrides.entries).rule

/-- The rule of a section on Java packages. -/
def JavaSection.rule (javaSection : JavaSection) : Except EditError OptionRule := do
  return (← JavaPackage.ofPrefix javaSection.packagePrefix).rule

namespace Config

/-- The rules of the sections that need no check, in their order. -/
def plainRules (config : Config) : List OptionRule :=
  (config.javaMultipleFiles.map javaMultipleFilesRule).toList ++
  (if config.javaOuterClassname then [javaOuterClassnameRule] else []) ++
  (if config.csharpNamespace then [csharpNamespaceRule] else []) ++
  (if config.rubyPackage then [rubyPackageRule] else []) ++
  (if config.phpNamespace then [phpNamespaceRule] else []) ++
  (if config.objcClassPrefix then [objcClassPrefixRule] else []) ++
  (config.ccEnableArenas.map ccEnableArenasRule).toList ++
  (config.optimizeFor.map optimizeForRule).toList

/-- The rule of a section that may be absent. -/
def sectionRule {α : Type} (rule : α → Except EditError OptionRule) :
    Option α → Except EditError (List OptionRule)
  | none => .ok []
  | some body => (rule body).map fun rule => [rule]

/-- The rules of the enabled sections, in their order. -/
def rules (config : Config) : Except EditError (List OptionRule) := do
  let go ← sectionRule GoSection.rule config.goPackage
  let java ← sectionRule JavaSection.rule config.javaPackage
  return go ++ java ++ config.plainRules

/-- The modifiers of the pass: one for each rule, and the sweep. -/
def build (config : Config) : Except EditError (List Modifier) :=
  config.rules.map fun rules => rules.map OptionRule.modifier ++ [Modifier.sweep]

end Config

end SchemaOptions
