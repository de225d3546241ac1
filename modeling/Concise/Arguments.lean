import Concise.Options
import Concise.Path

/-!
The arguments of the command.

Arguments are read from left to right by `Parsing.step`. The values of an option or of the paths are
held back until the next argument shows that they are complete, and only then checked. So of two
faults the first one counts, except that an unknown argument is reported before a fault in the
values right before it.
-/

namespace Concise

/-- What the command was asked to do. -/
structure Arguments where
  /-- Files and directories; a single `-` stands for the standard input. -/
  paths : List Path
  quote : Option QuoteStyle
  config : Option Path
  /-- Nothing is written back. -/
  isDry : Bool
  /-- Transformed sources are printed. -/
  prints : Bool
  extensions : Option (List String)
  ignorePatterns : List String
  /-- The name that tells the dialect of the standard input. -/
  stdinName : String
  /-- The number of workers. -/
  workers : Option Nat
  verbosity : Nat
deriving DecidableEq, Inhabited

namespace Arguments

/-- Whether the only path stands for the standard input. -/
def readsStdin (arguments : Arguments) : Bool := arguments.paths == ["-"]

end Arguments

/-- The version of the command. -/
def Command.version : String := "0.1.0"

/-- What the command can be asked. -/
def Command.help : String :=
  "\n".intercalate [
    "Rewrite object literal properties into shorthand properties and methods",
    "",
    "Usage: object-shorthand [OPTIONS] <PATH>...",
    "",
    "Arguments:",
    "  <PATH>...  Files or directories to transform. `-` reads from stdin and writes to stdout",
    "",
    "Options:",
    "      --quote <STYLE>          Quote style for printed string literals: `single` or `double`",
    "  -c, --config <FILE>          JSON configuration file",
    "  -d, --dry                    Do not write changes back to disk",
    "  -p, --print                  Print transformed sources to stdout",
    "      --extensions <EXT>       Extensions picked up when walking directories (comma separated)",
    "      --ignore-pattern <GLOB>  Glob of paths to skip inside directories. Can be repeated",
    "      --stdin-filename <NAME>  Name used to pick the dialect when reading stdin [default: stdin.js]",
    "      --cpus <N>               Number of worker threads",
    "  -v, --verbose...             Increase log verbosity (-v info, -vv debug)",
    "  -h, --help                   Print help",
    "  -V, --version                Print version"]

/-! ### Options and flags -/

/-- The options that take a value. -/
inductive OptionName where
  | quote
  | config
  | extensions
  | ignorePattern
  | stdinFilename
  | cpus
deriving DecidableEq, Inhabited

/-- The flags. -/
inductive FlagName where
  | dry
  | print
  | verbose
  | help
  | version
deriving DecidableEq, Inhabited

/-- What an argument's name stands for. -/
inductive Switch where
  | option (name : OptionName)
  | flag (name : FlagName)
deriving DecidableEq, Inhabited

namespace Switch

/-- The switch with a long name. -/
def ofLong? : String → Option Switch
  | "quote" => some (option .quote)
  | "config" => some (option .config)
  | "extensions" => some (option .extensions)
  | "ignore-pattern" => some (option .ignorePattern)
  | "stdin-filename" => some (option .stdinFilename)
  | "cpus" => some (option .cpus)
  | "dry" => some (flag .dry)
  | "print" => some (flag .print)
  | "verbose" => some (flag .verbose)
  | "help" => some (flag .help)
  | "version" => some (flag .version)
  | _ => none

/-- The switch with a short name. -/
def ofShort? : Char → Option Switch
  | 'c' => some (option .config)
  | 'd' => some (flag .dry)
  | 'p' => some (flag .print)
  | 'v' => some (flag .verbose)
  | 'h' => some (flag .help)
  | 'V' => some (flag .version)
  | _ => none

end Switch

/-- An option as messages name it. -/
def OptionName.display : OptionName → String
  | quote => "--quote <STYLE>"
  | config => "--config <FILE>"
  | extensions => "--extensions <EXT>"
  | ignorePattern => "--ignore-pattern <GLOB>"
  | stdinFilename => "--stdin-filename <NAME>"
  | cpus => "--cpus <N>"

/-- A flag as messages name it; dots say that it may be repeated. -/
def FlagName.display : FlagName → String
  | dry => "--dry"
  | print => "--print"
  | verbose => "--verbose..."
  | help => "--help"
  | version => "--version"

/-! ### Errors -/

/-- Why arguments were not accepted; asking for help or for the version ends the reading too. -/
inductive ArgumentError where
  | missingPath
  /-- A value that the option does not accept, and why. -/
  | invalidValue (value target reason : String)
  /-- An option without a value, or an empty path. -/
  | missingValue (target : String)
  | repeated (target : String)
  | unknown (argument : String)
  | unneededValue (value target : String)
  | help
  | version
deriving DecidableEq, Inhabited

namespace ArgumentError

/-- The text of an error. -/
def message : ArgumentError → String
  | missingPath => "error: the following required arguments were not provided:"
  | invalidValue value target reason =>
      "error: invalid value '" ++ value ++ "' for '" ++ target ++ "': " ++ reason
  | missingValue target => "error: a value is required for '" ++ target ++ "' but none was supplied"
  | repeated target => "error: the argument '" ++ target ++ "' cannot be used multiple times"
  | unknown argument => "error: unexpected argument '" ++ argument ++ "' found"
  | unneededValue value target =>
      "error: unexpected value '" ++ value ++ "' for '" ++ target ++
        "' found; no more were expected"
  | help => Command.help
  | version => "object-shorthand " ++ Command.version

/-- The first line of the text of an error. -/
def headline (e : ArgumentError) : String := String.ofList (e.message.toList.takeWhile (· != '\n'))

/-- Whether the command succeeded in what it was asked. -/
def isRequest : ArgumentError → Bool
  | help => true
  | version => true
  | _ => false

end ArgumentError

/-! ### Values -/

/-- The greatest number of workers that can be asked for. -/
def greatestCount : Nat := Nat.pow 2 64 - 1

/-- A number continued by a digit, or why it cannot be. -/
def appendDigit (n : Nat) (c : Char) : Except String Nat :=
  if '0' ≤ c && c ≤ '9' then
    let n := 10 * n + (c.toNat - '0'.toNat)
    if n ≤ greatestCount then .ok n else .error "number too large to fit in target type"
  else .error "invalid digit found in string"

/-- The number that a text writes in decimal digits, perhaps after a plus sign, or why it writes
none. -/
def parseCount (text : String) : Except String Nat :=
  match text.toList with
  | [] => .error "cannot parse integer from empty string"
  | ['+'] => .error "invalid digit found in string"
  | '+' :: digits => digits.foldlM appendDigit 0
  | digits => digits.foldlM appendDigit 0

/-- Values that have been held back. -/
inductive Pending where
  | nothing
  /-- An option that was met, and its value if it has come. -/
  | option (name : OptionName) (value : Option String)
  /-- Paths, the last one first. -/
  | paths (values : List String)
deriving DecidableEq, Inhabited

/-- What has been read of the arguments. -/
structure Parsing where
  /-- The paths, the last one first. -/
  paths : List Path := []
  quote : Option QuoteStyle := none
  config : Option Path := none
  isDry : Bool := false
  prints : Bool := false
  extensions : Option (List String) := none
  ignorePatterns : List String := []
  stdinName : Option String := none
  workers : Option Nat := none
  verbosity : Nat := 0
  pending : Pending := .nothing
  /-- Only paths follow. -/
  isTrailing : Bool := false
deriving DecidableEq, Inhabited

namespace Parsing

/-- Fails if an option was given before. -/
def once {α : Type} (previous : Option α) (name : OptionName) : Except ArgumentError Unit :=
  if previous.isSome then .error (.repeated name.display) else .ok ()

/-- Takes a path, which may not be empty. -/
def checkPath (value target : String) : Except ArgumentError Path :=
  if value.isEmpty then .error (.missingValue target) else .ok value

/-- Gives an option its value. -/
def set (p : Parsing) (name : OptionName) (value : String) : Except ArgumentError Parsing := do
  match name with
  | .quote =>
      once p.quote name
      match QuoteStyle.parse value with
      | .ok style => return { p with quote := some style }
      | .error e => throw (.invalidValue value name.display e.message)
  | .config =>
      once p.config name
      return { p with config := some (← checkPath value name.display) }
  | .extensions =>
      let parts := (value.toList.splitOn ',').map String.ofList
      return { p with extensions := some (p.extensions.getD [] ++ parts) }
  | .ignorePattern => return { p with ignorePatterns := p.ignorePatterns ++ [value] }
  | .stdinFilename =>
      once p.stdinName name
      return { p with stdinName := some value }
  | .cpus =>
      once p.workers name
      match parseCount value with
      | .ok n => return { p with workers := some n }
      | .error reason => throw (.invalidValue value name.display reason)

/-- Checks and takes the values that have been held back. -/
def flush (p : Parsing) : Except ArgumentError Parsing :=
  match p.pending with
  | .nothing => .ok p
  | .option name (some value) => { p with pending := .nothing }.set name value
  | .option name none => .error (.missingValue name.display)
  | .paths values => do
      let paths ← values.reverse.mapM fun value => checkPath value "<PATH>..."
      return { p with pending := .nothing, paths := paths.reverse ++ p.paths }

/-- Raises a flag. -/
def raise (p : Parsing) (name : FlagName) : Except ArgumentError Parsing := do
  let p ← p.flush
  match name with
  | .dry => if p.isDry then throw (.repeated name.display) else return { p with isDry := true }
  | .print => if p.prints then throw (.repeated name.display) else return { p with prints := true }
  | .verbose => return { p with verbosity := min 255 (p.verbosity + 1) }
  | .help => throw .help
  | .version => throw .version

/-- Meets an option, perhaps with its value attached. -/
def meet (p : Parsing) (name : OptionName) (value : Option String) :
    Except ArgumentError Parsing := do
  let p ← p.flush
  match value with
  | some value => p.set name value
  | none => return { p with pending := .option name none }

/-- Holds a path back. -/
def addPath (p : Parsing) (value : String) : Except ArgumentError Parsing := do
  match p.pending with
  | .paths values => return { p with pending := .paths (value :: values) }
  | _ =>
      let p ← p.flush
      return { p with pending := .paths [value] }

/-- Splits a text at its first equals sign. -/
def splitValue (cs : List Char) : String × Option String :=
  match cs.span (· != '=') with
  | (name, _ :: value) => (String.ofList name, some (String.ofList value))
  | (name, []) => (String.ofList name, none)

/-- Takes a long argument after its dashes. -/
def long (p : Parsing) (cs : List Char) : Except ArgumentError Parsing :=
  let (name, value) := splitValue cs
  match Switch.ofLong? name, value with
  | some (.option o), value => p.meet o value
  | some (.flag f), none => p.raise f
  | some (.flag f), some value => .error (.unneededValue value f.display)
  | none, _ => .error (.unknown ("--" ++ name))

/-- Takes short arguments after their dash: flags, then perhaps an option with its value. -/
def short (p : Parsing) : List Char → Except ArgumentError Parsing
  | [] => .ok p
  | c :: rest =>
      match Switch.ofShort? c with
      | some (.flag f) => do short (← p.raise f) rest
      | some (.option o) =>
          match rest with
          | [] => p.meet o none
          | '=' :: value => p.meet o (some (String.ofList value))
          | value => p.meet o (some (String.ofList value))
      | none => .error (.unknown (String.ofList ['-', c]))

/-- Takes an argument that is no switch. -/
def plain (p : Parsing) (argument : String) : Except ArgumentError Parsing :=
  match p.pending with
  | .option name none => .ok { p with pending := .option name (some argument) }
  | _ => p.addPath argument

/-- Takes an argument. -/
def step (p : Parsing) (argument : String) : Except ArgumentError Parsing :=
  if p.isTrailing then p.addPath argument
  else
    match argument.toList with
    | ['-', '-'] => .ok { p with isTrailing := true }
    | '-' :: '-' :: rest => p.long rest
    | ['-'] => p.plain argument
    | '-' :: rest => p.short rest
    | _ => p.plain argument

/-- The arguments that have been read. -/
def finish (p : Parsing) : Except ArgumentError Arguments := do
  let p ← p.flush
  if p.paths.isEmpty then throw .missingPath
  return {
    paths := p.paths.reverse, quote := p.quote, config := p.config, isDry := p.isDry
    prints := p.prints, extensions := p.extensions, ignorePatterns := p.ignorePatterns
    stdinName := p.stdinName.getD "stdin.js", workers := p.workers, verbosity := p.verbosity }

end Parsing

/-- Reads the arguments of the command. -/
def Arguments.parse (argv : List String) : Except ArgumentError Arguments := do
  (← argv.foldlM Parsing.step {}).finish

end Concise
