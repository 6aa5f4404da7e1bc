import SchemaOptions.Config.Basic
import SchemaOptions.Yaml.Document
import SchemaOptions.Yaml.Value

/-!
# Reading a configuration

A configuration is a YAML document: a mapping with a field for each part that is not to have its
default. A field that is unknown or given twice is refused; in the package names of single files,
which are data and no fields, the last entry for a path counts. A text without any document is the
configuration that enables nothing.
-/

namespace SchemaOptions

open SchemaOptions.Yaml

/-- Why a configuration cannot be loaded. -/
inductive LoadError where
  /-- There is no such file. -/
  | unreadable
  /-- The bytes are no configuration. -/
  | malformed
  /-- The configuration contradicts itself. -/
  | invalid (fault : ConfigurationFault)
deriving DecidableEq

/-- The wording of an error. -/
def LoadError.message : LoadError → String
  | .unreadable => "I/O error"
  | .malformed => "YAML error"
  | .invalid fault => (EditError.configuration fault).message

/-- The mode that a name in a configuration stands for. -/
def OptimizeMode.ofConfigName? : String → Option OptimizeMode
  | "speed" => some .speed
  | "code_size" => some .codeSize
  | "lite_runtime" => some .liteRuntime
  | _ => none

/-- The name of a mode in a configuration. -/
def OptimizeMode.configName : OptimizeMode → String
  | .speed => "speed"
  | .codeSize => "code_size"
  | .liteRuntime => "lite_runtime"

namespace ConfigReading

/-- The nodes of a mapping under the names of its fields. -/
abbrev Fields := List (String × Node)

/-- The fields of a node, if it has only known ones and each of them once. Aliases are replaced by
what they name. -/
def fields? (root : Node) (known : List String) (node : Node) : Option Fields := do
  let entries ← node.entries?
  let fields ← entries.mapM fun (key, value) => do
    let name ← (← root.resolve? key).text?
    return (name, ← root.resolve? value)
  let names := fields.map (·.1)
  if names.all known.contains && decide names.Nodup then some fields else none

/-- A field that has a default. -/
def field {α : Type} (read : Node → Option α) (default : α) (name : String) (fields : Fields) :
    Option α :=
  match fields.lookup name with
  | some node => read node
  | none => some default

/-- A field that may be absent. -/
def optionalField {α : Type} (read : Node → Option α) (name : String) (fields : Fields) :
    Option (Option α) :=
  field (Node.optional? read) none name fields

/-- The package names of single files. -/
def overrides? (root node : Node) : Option PackageNames := do
  let entries ← node.entries?
  let pairs ← entries.mapM fun (key, value) => do
    let path ← (← root.resolve? key).text?
    return (path, ← (← root.resolve? value).text?)
  return PackageNames.ofList pairs

/-- The section on Go packages. -/
def goSection? (root node : Node) : Option GoSection := do
  let fields ← fields? root ["prefix", "overrides"] node
  let start ← (fields.lookup "prefix").bind Node.text?
  return {
    importPrefix := start
    overrides := ← field (overrides? root) .empty "overrides" fields }

/-- The section on Java packages. -/
def javaSection? (root node : Node) : Option JavaSection := do
  let fields ← fields? root ["prefix"] node
  return { packagePrefix := ← field Node.text? JavaSection.defaultPrefix "prefix" fields }

/-- The mode for which code is optimized. -/
def mode? (node : Node) : Option OptimizeMode :=
  node.case?.bind OptimizeMode.ofConfigName?

/-- The names of the fields of a configuration, in the order in which they are written. -/
def fieldNames : List String := [
  "version", "jobs", "go_package", "java_package", "java_multiple_files", "java_outer_classname",
  "csharp_namespace", "ruby_package", "php_namespace", "objc_class_prefix", "cc_enable_arenas",
  "optimize_for"]

/-- The configuration that a document is. -/
def config? (root : Node) : Option Config := do
  let fields ← fields? root fieldNames root
  return {
    version := ← field Node.text? Config.default.version "version" fields
    jobs := ← optionalField Node.uint64? "jobs" fields
    goPackage := ← optionalField (goSection? root) "go_package" fields
    javaPackage := ← optionalField (javaSection? root) "java_package" fields
    javaMultipleFiles := ← optionalField Node.bool? "java_multiple_files" fields
    javaOuterClassname := ← field Node.bool? false "java_outer_classname" fields
    csharpNamespace := ← field Node.bool? false "csharp_namespace" fields
    rubyPackage := ← field Node.bool? false "ruby_package" fields
    phpNamespace := ← field Node.bool? false "php_namespace" fields
    objcClassPrefix := ← field Node.bool? false "objc_class_prefix" fields
    ccEnableArenas := ← optionalField Node.bool? "cc_enable_arenas" fields
    optimizeFor := ← optionalField mode? "optimize_for" fields }

end ConfigReading

namespace Config

/-- The configuration that bytes spell, whether or not it contradicts itself. -/
def ofBytes? (bytes : List UInt8) : Option Config :=
  match Node.ofBytes? bytes with
  | none => none
  | some none => some Config.default
  | some (some root) => ConfigReading.config? root

/-- Loads the configuration that the content of a file is, if there is a file. -/
def load (content? : Option (List UInt8)) : Except LoadError Config :=
  match content? with
  | none => .error .unreadable
  | some bytes =>
    match ofBytes? bytes with
    | none => .error .malformed
    | some config =>
      match config.fault? with
      | some fault => .error (.invalid fault)
      | none => .ok config

end Config

end SchemaOptions
