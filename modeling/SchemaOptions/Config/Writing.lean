import SchemaOptions.Config.Reading
import SchemaOptions.Yaml.Writer

/-!
# Writing a configuration

The fields of a configuration in a fixed order. Sections that are absent are left out, and so are
package names if there are none; the version and the sections that are just true or false are always
written.
-/

namespace SchemaOptions

open SchemaOptions.Yaml

/-- A field that is left out if it is absent. -/
def presentField {α : Type} (name : String) (content : α → Content) (value : Option α) :
    List (String × Content) :=
  value.toList.map fun a => (name, content a)

/-- A truth value. -/
def Content.ofBool (b : Bool) : Content :=
  .word (if b then "true" else "false")

/-- The section on Go packages. -/
def GoSection.content (goSection : GoSection) : Content :=
  .mapping <|
    ("prefix", .text goSection.importPrefix) ::
    if goSection.overrides.entries.isEmpty then []
    else
      [("overrides",
        .mapping (goSection.overrides.entries.map fun (path, name) => (path, .text name)))]

/-- The section on Java packages. -/
def JavaSection.content (javaSection : JavaSection) : Content :=
  .mapping [("prefix", .text javaSection.packagePrefix)]

namespace Config

/-- The fields of a configuration. -/
def fields (config : Config) : List (String × Content) :=
  [("version", .text config.version)] ++
  presentField "jobs" (fun n => .word n.toNat.repr) config.jobs ++
  presentField "go_package" GoSection.content config.goPackage ++
  presentField "java_package" JavaSection.content config.javaPackage ++
  presentField "java_multiple_files" Content.ofBool config.javaMultipleFiles ++
  [("java_outer_classname", Content.ofBool config.javaOuterClassname),
   ("csharp_namespace", Content.ofBool config.csharpNamespace),
   ("ruby_package", Content.ofBool config.rubyPackage),
   ("php_namespace", Content.ofBool config.phpNamespace),
   ("objc_class_prefix", Content.ofBool config.objcClassPrefix)] ++
  presentField "cc_enable_arenas" Content.ofBool config.ccEnableArenas ++
  presentField "optimize_for" (fun mode => .text mode.configName) config.optimizeFor

/-- The text of a configuration. -/
def text (config : Config) : String :=
  String.ofList (writeEntries 0 config.fields)

/-- The bytes of a configuration, which load as the same configuration. -/
def save (config : Config) : List UInt8 :=
  config.text.toUTF8.data.toList

end Config

end SchemaOptions
