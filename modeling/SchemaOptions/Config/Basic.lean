import SchemaOptions.Config.PackageNames
import SchemaOptions.Edit.Error
import SchemaOptions.Options.Value

/-!
# Configurations

A configuration says which options are managed and how. Each section stands for one rule and is
enabled by being present, or by being true where there is nothing to say about it.
-/

namespace SchemaOptions

/-- The section on Go packages. -/
structure GoSection where
  importPrefix : String
  /-- Package names that single files are given by hand. -/
  overrides : PackageNames := .empty
deriving DecidableEq

/-- The section on Java packages. -/
structure JavaSection where
  packagePrefix : String
deriving DecidableEq

/-- The package below which all Java packages stand if the section does not say. -/
def JavaSection.defaultPrefix : String := "com"

/-- What is managed and how. -/
structure Config where
  version : String := "1.0"
  jobs : Option UInt64 := none
  goPackage : Option GoSection := none
  javaPackage : Option JavaSection := none
  javaMultipleFiles : Option Bool := none
  javaOuterClassname : Bool := false
  csharpNamespace : Bool := false
  rubyPackage : Bool := false
  phpNamespace : Bool := false
  objcClassPrefix : Bool := false
  ccEnableArenas : Option Bool := none
  optimizeFor : Option OptimizeMode := none
deriving DecidableEq

namespace Config

/-- The configuration that enables nothing. -/
def default : Config := {}

/-- The fault of a configuration that asks for no workers. -/
def fault? (config : Config) : Option ConfigurationFault :=
  if config.jobs = some 0 then some .noJobs else none

/-- Whether no section is enabled. -/
def isEmpty (config : Config) : Bool :=
  config.goPackage.isNone && config.javaPackage.isNone && config.javaMultipleFiles.isNone &&
    !config.javaOuterClassname && !config.csharpNamespace && !config.rubyPackage &&
    !config.phpNamespace && !config.objcClassPrefix && config.ccEnableArenas.isNone &&
    config.optimizeFor.isNone

end Config

end SchemaOptions
