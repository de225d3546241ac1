import Concise.Arguments
import Concise.Config
import Concise.Glob

/-!
The settings of a run: what the arguments say, else what the configuration says, else the defaults.
Patterns add up: the default one, those of the configuration, those of the arguments.
-/

namespace Concise

/-- What a run is told. -/
structure Settings where
  transform : TransformOptions
  /-- The extensions of the files that are taken from directories. -/
  extensions : List String
  /-- Files in directories that one of these matches are left out. -/
  ignored : List Glob
  /-- Nothing is written back. -/
  isDry : Bool
  /-- Transformed sources are kept in the reports. -/
  prints : Bool
deriving DecidableEq, Inhabited

/-- A pattern that cannot be read. -/
structure PatternError where
  pattern : String
  error : Glob.Error
deriving DecidableEq, Inhabited

/-- The text of an error. -/
def PatternError.message (e : PatternError) : String :=
  "invalid ignore pattern `" ++ e.pattern ++ "`: " ++ e.error.message

namespace Settings

/-- The extensions that are taken from directories unless others are given. -/
def defaultExtensions : List String := ["js", "jsx", "mjs", "cjs", "ts", "tsx"]

/-- What is always left out: everything below a directory of installed packages. -/
def defaultIgnored : List Glob := (Glob.parse "**/node_modules/**").toOption.toList

/-- The settings of a run that is told nothing. -/
def default : Settings where
  transform := {}
  extensions := defaultExtensions
  ignored := defaultIgnored
  isDry := false
  prints := false

/-- An extension without the dots in front. -/
def withoutDots (extension : String) : String :=
  String.ofList (extension.toList.dropWhile (· == '.'))

/-- Reads a pattern of files to leave out. -/
def parsePattern (pattern : String) : Except PatternError Glob :=
  (Glob.parse pattern).mapError fun error => { pattern, error }

/-- The options for printing: a style of quotes among the arguments wins. -/
def printOptions (arguments : Arguments) (config : Config) : PrintOptions :=
  let options := config.printOptions.getD {}
  match arguments.quote with
  | some quote => { options with quote }
  | none => options

/-- The settings that arguments and a configuration make. -/
def resolve (arguments : Arguments) (config : Config) : Except PatternError Settings := do
  let patterns ← (config.ignorePatterns ++ arguments.ignorePatterns).mapM parsePattern
  let extensions :=
    match arguments.extensions.or config.extensions with
    | some extensions => extensions.map withoutDots
    | none => defaultExtensions
  return {
    transform := { printOptions := printOptions arguments config }
    extensions
    ignored := defaultIgnored ++ patterns
    isDry := arguments.isDry
    prints := arguments.prints }

/-- Whether a file in a directory has an extension that is taken. -/
def accepts (settings : Settings) (path : Path) : Bool :=
  match path.extension? with
  | some extension => settings.extensions.contains extension
  | none => false

/-- Whether a path, relative to a directory, is left out. -/
def ignores (settings : Settings) (relative : Path) : Bool :=
  settings.ignored.any fun glob => glob.matchesPath relative

end Settings

end Concise
