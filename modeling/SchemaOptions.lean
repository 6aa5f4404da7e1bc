import SchemaOptions.Command.Directory
import SchemaOptions.Config.Writing
import SchemaOptions.Main
import SchemaOptions.Proofs.Effect
import SchemaOptions.Proofs.Refusal
import SchemaOptions.Proofs.Files
import SchemaOptions.Proofs.Editing
import SchemaOptions.Proofs.Rules
import SchemaOptions.Proofs.Flattening
import SchemaOptions.Proofs.Target
import SchemaOptions.Proofs.Image
import SchemaOptions.Proofs.FirstFault
import SchemaOptions.Proofs.Managed
import SchemaOptions.Proofs.Pass
import SchemaOptions.Proofs.Failure
import SchemaOptions.Proofs.Calls
import SchemaOptions.Proofs.Operations
import SchemaOptions.Proofs.Settled
import SchemaOptions.Proofs.Wire.Token
import SchemaOptions.Proofs.Wire.Conforms
import SchemaOptions.Proofs.Wire.RoundTrip
import SchemaOptions.Proofs.Wire.Sections
import SchemaOptions.Proofs.Wire.Concatenation
import SchemaOptions.Proofs.Bytes
import SchemaOptions.Proofs.Joining
import SchemaOptions.Proofs.Again
import SchemaOptions.Proofs.Frame
import SchemaOptions.Proofs.Reencoding
import SchemaOptions.Proofs.SweepOrder
import SchemaOptions.Proofs.Work
import SchemaOptions.Proofs.Naming
import SchemaOptions.Proofs.GoPackage
import SchemaOptions.Proofs.ImportPath
import SchemaOptions.Proofs.PascalCase
import SchemaOptions.Proofs.Joined
import SchemaOptions.Proofs.Grammar
import SchemaOptions.Proofs.Namespace
import SchemaOptions.Proofs.Update
import SchemaOptions.Proofs.RuleOrder
import SchemaOptions.Proofs.FileOrder
import SchemaOptions.Proofs.Checks
import SchemaOptions.Proofs.Stripped
import SchemaOptions.Proofs.Touched
import SchemaOptions.Proofs.Yaml.Characters
import SchemaOptions.Proofs.Yaml.Scalar.Quoted
import SchemaOptions.Proofs.Yaml.Scalar.Block
import SchemaOptions.Proofs.Yaml.Steps
import SchemaOptions.Proofs.Yaml.Scalar.Token
import SchemaOptions.Proofs.Yaml.Lexing
import SchemaOptions.Proofs.Yaml.Parsing
import SchemaOptions.Proofs.Saving
import SchemaOptions.Proofs.Settings
import SchemaOptions.Proofs.ClassPrefix
import SchemaOptions.Proofs.TouchSet
import SchemaOptions.Proofs.Inspection
import SchemaOptions.Proofs.Assignment
import SchemaOptions.Proofs.Removal
import SchemaOptions.Proofs.Separators
import SchemaOptions.Proofs.Directory
import SchemaOptions.Proofs.TouchMap
