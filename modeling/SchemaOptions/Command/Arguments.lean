import SchemaOptions.Command.Basic
import SchemaOptions.Text.Digits

/-!
# Arguments

A command is named by a word, behind which its options stand in any order, each at most once. The
value of an option is the next argument, or what follows an equals sign. An argument that begins
with a dash is no value of the option before it, a lone dash apart. Two dashes end the options, and
nothing may follow them.

A flag asks for a more verbose log, which is no part of the output. It may stand once before the
name of the command and once behind it.

Arguments are read from left to right: a request for help counts if no argument before it is wrong.
-/

namespace SchemaOptions

/-- What a list of arguments asks for. -/
inductive Request where
  | run (command : Command)
  | help
  /-- The arguments are no request. -/
  | misuse
deriving DecidableEq

namespace Arguments

/-- Whether an argument asks for help. -/
def isHelpFlag (arg : String) : Bool :=
  arg == "-h" || arg == "--help"

/-- Whether an argument asks for a more verbose log. -/
def isVerboseFlag (arg : String) : Bool :=
  arg == "-v" || arg == "--verbose"

/-- Whether an argument cannot be the value of an option before it. -/
def isDashed : List Char → Bool
  | '-' :: _ :: _ => true
  | _ => false

/-- The name of an option, and its value if an equals sign stands behind the name. -/
def option? (arg : List Char) : Option (String × Option String) :=
  match arg with
  | '-' :: '-' :: text =>
    let name := String.ofList (text.takeWhile (· != '='))
    match text.dropWhile (· != '=') with
    | [] => some (name, none)
    | _ :: value => some (name, some (String.ofList value))
  | _ => none

/-- What came of reading options. -/
inductive Reading (σ : Type) where
  | done (given : σ)
  | help
  | misuse

/-- Reads the options of a command. How an option is noted is the command's business; it may refuse
an option or its value. -/
def readOptions {σ : Type} (note : String → String → σ → Option σ) :
    (verbose : Bool) → σ → List String → Reading σ
  | _, given, [] => .done given
  | verbose, given, arg :: rest =>
    if arg == "--" then
      if rest.isEmpty then .done given else .misuse
    else if isHelpFlag arg then
      .help
    else if isVerboseFlag arg then
      if verbose then .misuse else readOptions note true given rest
    else
      match option? arg.toList, rest with
      | none, _ => .misuse
      | some (name, some value), rest =>
        match note name value given with
        | some given => readOptions note verbose given rest
        | none => .misuse
      | some _, [] => .misuse
      | some (name, none), value :: rest =>
        if isDashed value.toList then .misuse
        else
          match note name value given with
          | some given => readOptions note verbose given rest
          | none => .misuse

/-! ## Options of the commands -/

/-- Notes the value of an option that may be given once. -/
def once {α : Type} (value? : Option α) : Option α → Option (Option α)
  | none => value?.map some
  | some _ => none

/-- A path is any text but the empty one. -/
def path? (s : String) : Option String :=
  if s.isEmpty then none else some s

/-- A number of at most 64 bits, in decimal digits with or without a plus sign. -/
def uint64? (s : String) : Option UInt64 :=
  let digits :=
    match s.toList with
    | '+' :: digits => digits
    | digits => digits
  ((Text.digitsOf? 10 digits).filter (· < UInt64.size)).map UInt64.ofNat

/-- The options of a request to modify an image, as far as they are given. -/
structure ModifyOptions where
  image : Option String := none
  output : Option String := none
  config : Option String := none
  jobs : Option UInt64 := none
  importPrefix : Option String := none

/-- Notes an option of a request to modify an image. -/
def ModifyOptions.note (name value : String) (given : ModifyOptions) : Option ModifyOptions :=
  match name with
  | "image" => (once (path? value) given.image).map fun image => { given with image }
  | "output" => (once (path? value) given.output).map fun output => { given with output }
  | "config" => (once (path? value) given.config).map fun config => { given with config }
  | "jobs" => (once (uint64? value) given.jobs).map fun jobs => { given with jobs }
  | "go-package-prefix" =>
    (once (some value) given.importPrefix).map fun importPrefix => { given with importPrefix }
  | _ => none

/-- The request to modify an image, if its two paths are given. -/
def ModifyOptions.request (given : ModifyOptions) : Request :=
  match given.image, given.output with
  | some image, some output =>
    .run (.modify {
      image, output
      config? := given.config
      jobs? := given.jobs
      importPrefix? := given.importPrefix })
  | _, _ => .misuse

/-- Notes an option of a request to inspect an image. -/
def noteInspected (name value : String) (image : Option String) : Option (Option String) :=
  match name with
  | "image" => once (path? value) image
  | _ => none

/-- The request that reading the options of a command comes to. -/
def Reading.request {σ : Type} (finish : σ → Request) : Reading σ → Request
  | .done given => finish given
  | .help => .help
  | .misuse => .misuse

/-- The request to modify an image that options make. -/
def modifyRequest (args : List String) : Request :=
  (readOptions ModifyOptions.note false {} args).request ModifyOptions.request

/-- The request to inspect an image that options make. -/
def inspectRequest (args : List String) : Request :=
  (readOptions noteInspected false none args).request fun image =>
    image.elim .misuse fun image => .run (.inspect image)

/-- The request for help on at most one command. -/
def helpRequest : List String → Request
  | [] => .help
  | [topic] => if ["modify", "inspect", "help"].contains topic then .help else .misuse
  | _ => .misuse

/-- The request that arguments make, behind a flag if there was one. -/
def request (verbose : Bool) : List String → Request
  | [] => .misuse
  | arg :: rest =>
    if isHelpFlag arg then .help
    else if isVerboseFlag arg then (if verbose then .misuse else request true rest)
    else
      match arg with
      | "modify" => modifyRequest rest
      | "inspect" => inspectRequest rest
      | "help" => helpRequest rest
      | _ => .misuse

end Arguments

/-- The request that arguments make. -/
def Request.ofArguments (args : List String) : Request :=
  Arguments.request false args

end SchemaOptions
