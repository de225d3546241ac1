import Concise.JsonValue
import Concise.Options

/-!
Options and configurations as JSON texts.

Unknown fields are ignored and a repeated known one is an error. A style of quotes may be written as
its name or as an object with the name as its only field and null as value.
-/

namespace Concise

namespace QuoteStyle

/-- The style that a value names. -/
def ofJson? : JsonValue → Option QuoteStyle
  | .string (some name) => ofName? name
  | .object [(some name, .null)] => ofName? name
  | _ => none

end QuoteStyle

namespace PrintOptions

/-- The options that a record gives. -/
def ofJson? (value : JsonValue) : Option PrintOptions :=
  match value.record? ["quote"] with
  | some [some quote] => (QuoteStyle.ofJson? quote).map fun quote => { quote }
  | some [none] => some {}
  | _ => none

end PrintOptions

namespace TransformOptions

/-- The options that a record gives. -/
def ofJson? (value : JsonValue) : Option TransformOptions :=
  match value.record? ["printOptions"] with
  | some [some options] => (PrintOptions.ofJson? options).map fun printOptions => { printOptions }
  | some [none] => some {}
  | _ => none

/-- Reads options. -/
def parse? (text : String) : Option TransformOptions := JsonValue.parse? text >>= ofJson?

/-- Writes options. -/
def write (options : TransformOptions) : String :=
  JsonValue.writeObject
    [("printOptions",
      JsonValue.writeObject [("quote", JsonValue.quote options.printOptions.quote.name)])]

end TransformOptions

/-- A configuration file. -/
structure Config where
  printOptions : Option PrintOptions := none
  /-- The extensions of the files that are taken from directories. -/
  extensions : Option (List String) := none
  /-- Patterns, relative to each directory, of files that are left out. -/
  ignorePatterns : List String := []
deriving DecidableEq, Inhabited

namespace Config

/-- A value that may be null. -/
def nullable {α : Type} (decode : JsonValue → Option α) : JsonValue → Option (Option α)
  | .null => some none
  | value => (decode value).map some

/-- The configuration that a record gives. In an array the first two fields must be present. -/
def ofJson? (value : JsonValue) : Option Config := do
  let parts ← value.record? ["printOptions", "extensions", "ignorePattern"]
  match value, parts with
  | .array (_ :: _ :: _), [some print, some extensions, patterns] =>
      decode print extensions patterns
  | .array _, _ => none
  | _, [print, extensions, patterns] =>
      decode (print.getD .null) (extensions.getD .null) patterns
  | _, _ => none
where
  decode (print extensions : JsonValue) (patterns : Option JsonValue) : Option Config := do
    let printOptions ← nullable PrintOptions.ofJson? print
    let extensions ← nullable JsonValue.asStrings? extensions
    let ignorePatterns ←
      match patterns with
      | some patterns => patterns.asStrings?
      | none => some []
    return { printOptions, extensions, ignorePatterns }

/-- Reads a configuration. -/
def parse? (text : String) : Option Config := JsonValue.parse? text >>= ofJson?

end Config

end Concise
