import ServiceStubs.Settings.Basic
import ServiceStubs.Text.Split

/-!
# Requests on the command line

The command line names a command and its options.  An option that takes a value
has it after an equals sign or as the next argument; a one-letter option may have
it in the same argument, and several one-letter options may share an argument.
What cannot be read this way is no request.

Arguments are read from left to right, and asking for help or for the version
ends the reading.

## Main definitions

* `Request` — what is asked for.
* `OptionSpec`, `Level` — the options of a command.
* `Request.ofArgs?` — the request of some arguments.
-/

namespace ServiceStubs.Command

open Text

/-- Which schemas to generate packages from, and how. -/
structure Selection where
  schemas : List String
  /-- A directory to search for further schemas. -/
  directory : Option String
  /-- The stems of the files that are taken from the directory, if not all. -/
  filter : Option (List String)
  output : String
  config : Option String

/-- What is asked for. -/
inductive Request
  | help
  | version
  | parse (verbose : Bool) (schema : String)
  | generate (verbose : Bool) (selection : Selection)

/-! ## Options -/

/-- What an option gives. -/
inductive OptionName
  | schema
  | schemaDir
  | filter
  | output
  | config
  deriving DecidableEq

/-- An option that takes a value. -/
structure OptionSpec where
  name : OptionName
  long : String
  short : Option Char := none
  /-- Whether it takes several values, with commas between them or by being
  repeated. -/
  many : Bool := false
  mayBeEmpty : Bool := false

/-- The options of a command, those that every command has apart. -/
structure Level where
  specs : List OptionSpec := []
  hasVersion : Bool := false

/-- The options before the command. -/
def topLevel : Level where
  hasVersion := true

/-- The options of the command that shows a package. -/
def parseLevel : Level where
  specs := [{ name := .schema, long := "schema", short := some 's' }]

/-- The options of the command that generates packages. -/
def generateLevel : Level where
  specs :=
    [{ name := .schema, long := "schema", short := some 's', many := true },
      { name := .schemaDir, long := "schema-dir" },
      { name := .filter, long := "filter", many := true, mayBeEmpty := true },
      { name := .output, long := "output", short := some 'o' },
      { name := .config, long := "config", short := some 'c' }]

/-- Where packages are written unless an option says otherwise. -/
def defaultOutput : String := "./typings"

/-! ## Reading -/

/-- Why the reading ends early. -/
inductive Stop
  /-- The arguments cannot be read. -/
  | usage
  | help
  | version
  deriving DecidableEq

/-- The options that were given so far. -/
structure Given where
  verbose : Bool := false
  values : List (OptionName × String) := []

namespace Given

/-- The values of an option. -/
def get (g : Given) (name : OptionName) : List String :=
  (g.values.filter (·.1 = name)).map Prod.snd

/-- The value of an option that is given at most once. -/
def get? (g : Given) (name : OptionName) : Option String :=
  (g.get name).head?

/-- Takes in the option that asks for more output, which must not be
repeated. -/
def addVerbose (g : Given) : Except Stop Given :=
  if g.verbose then .error .usage else .ok { g with verbose := true }

/-- Takes in the value of an option. -/
def add (g : Given) (spec : OptionSpec) (value : String) : Except Stop Given :=
  let values := if spec.many then splitOn ',' value else [value]
  if !spec.mayBeEmpty && values.contains "" then .error .usage
  else if !spec.many && !(g.get spec.name).isEmpty then .error .usage
  else .ok { g with values := g.values ++ values.map (spec.name, ·) }

end Given

/-- Takes in an option without a value. -/
def addFlag (level : Level) (g : Given) (long : String) : Except Stop Given :=
  if long = "verbose" then g.addVerbose
  else if long = "help" then .error .help
  else if long = "version" && level.hasVersion then .error .version
  else .error .usage

/-- The long form of a one-letter option without a value. -/
def longFlag (c : Char) : String :=
  if c = 'v' then "verbose" else if c = 'h' then "help" else if c = 'V' then "version" else ""

/-- A name, and the value after the first equals sign if there is one. -/
def nameAndValue (cs : List Char) : String × Option String :=
  (String.ofList (cs.takeWhile (· ≠ '=')),
    match cs.dropWhile (· ≠ '=') with
    | _ :: value => some (String.ofList value)
    | [] => none)

/-- Takes in an option that is written as a word.  When it takes a value that is
not there, it is returned too. -/
def readLong (level : Level) (g : Given) (cs : List Char) :
    Except Stop (Given × Option OptionSpec) := do
  let (name, value) := nameAndValue cs
  match level.specs.find? (·.long = name), value with
  | some spec, some value => return (← g.add spec value, none)
  | some spec, none => return (g, some spec)
  | none, some _ => throw .usage
  | none, none => return (← addFlag level g name, none)

/-- Takes in some one-letter options.  When the last one takes a value that is
not there, it is returned too. -/
def readShort (level : Level) : Given → List Char → Except Stop (Given × Option OptionSpec)
  | g, [] => return (g, none)
  | g, c :: cs => do
    match level.specs.find? (·.short = some c) with
    | some spec =>
      match cs with
      | [] => return (g, some spec)
      | '=' :: value => return (← g.add spec (String.ofList value), none)
      | value => return (← g.add spec (String.ofList value), none)
    | none => readShort level (← addFlag level g (longFlag c)) cs

/-- Whether an argument is an option and not a value. -/
def isOption (arg : String) : Bool :=
  ['-'].isPrefixOf arg.toList && arg ≠ "-"

/-- Takes in an argument that is an option. -/
def readOption (level : Level) (g : Given) (arg : String) :
    Except Stop (Given × Option OptionSpec) :=
  match arg.toList with
  | '-' :: '-' :: cs => readLong level g cs
  | '-' :: c :: cs => readShort level g (c :: cs)
  | _ => .error .usage

/-- Takes in the arguments after a command.  `pending` is an option whose value
comes next.  Nothing may follow the mark that ends the options. -/
def readArgs (level : Level) :
    (pending : Option OptionSpec) → Given → List String → Except Stop Given
  | none, g, [] => .ok g
  | some _, _, [] => .error .usage
  | some spec, g, arg :: args => do
    if isOption arg then throw .usage
    readArgs level none (← g.add spec arg) args
  | none, g, arg :: args => do
    if arg = "--" then
      if args.isEmpty then return g else throw .usage
    let (g, pending) ← readOption level g arg
    readArgs level pending g args

/-! ## Requests -/

namespace Request

/-- The request to show a package. -/
def ofParse (verbose : Bool) (args : List String) : Except Stop Request := do
  let g ← readArgs parseLevel none {} args
  match g.get? .schema with
  | some schema => return .parse (verbose || g.verbose) schema
  | none => throw .usage

/-- The request to generate packages, which needs a schema or a directory. -/
def ofGenerate (verbose : Bool) (args : List String) : Except Stop Request := do
  let g ← readArgs generateLevel none {} args
  let schemas := g.get .schema
  let directory := g.get? .schemaDir
  if schemas.isEmpty && directory.isNone then throw .usage
  let filter := g.get .filter
  return .generate (verbose || g.verbose) {
    schemas
    directory
    filter := if filter.isEmpty then none else some filter
    output := (g.get? .output).getD defaultOutput
    config := g.get? .config }

/-- The request for help, about one of the commands perhaps. -/
def ofHelp : List String → Except Stop Request
  | [] => .error .help
  | [command] => .error (if ["parse", "generate", "help"].contains command then .help else .usage)
  | _ => .error .usage

/-- The request of some arguments after some options. -/
def ofArgsFrom (g : Given) : List String → Except Stop Request
  | [] => .error .usage
  | arg :: args => do
    if arg = "parse" then ofParse g.verbose args
    else if arg = "generate" then ofGenerate g.verbose args
    else if arg = "help" then ofHelp args
    else if !isOption arg || arg = "--" then throw .usage
    else
      let (g, _) ← readOption topLevel g arg
      ofArgsFrom g args

/-- The request of some arguments, if they can be read. -/
def ofArgs? (args : List String) : Option Request :=
  match ofArgsFrom {} args with
  | .ok r => some r
  | .error .help => some .help
  | .error .version => some .version
  | .error .usage => none

end Request

end ServiceStubs.Command
