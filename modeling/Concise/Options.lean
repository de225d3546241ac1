import Concise.Error

/-!
Options of a transformation. Only printing depends on them.
-/

namespace Concise

/-- The quotes around printed strings. -/
inductive QuoteStyle where
  | single
  | double
deriving DecidableEq, Inhabited

namespace QuoteStyle

/-- The name of a style. -/
def name : QuoteStyle → String
  | single => "single"
  | double => "double"

/-- The style with a name. -/
def ofName? : String → Option QuoteStyle
  | "single" => some single
  | "double" => some double
  | _ => none

/-- The style with a name, or the error that names it. -/
def parse (text : String) : Except Error QuoteStyle :=
  match ofName? text with
  | some style => .ok style
  | none => .error (.invalidQuoteStyle text)

/-- The quote itself. -/
def quote : QuoteStyle → Char
  | single => '\''
  | double => '"'

end QuoteStyle

/-- How a program is printed. -/
structure PrintOptions where
  quote : QuoteStyle := .single
deriving DecidableEq, Inhabited

/-- The options of a transformation. -/
structure TransformOptions where
  printOptions : PrintOptions := {}
deriving DecidableEq, Inhabited

namespace TransformOptions

/-- The options that differ from the default in the quotes. -/
def withQuote (quote : QuoteStyle) : TransformOptions := { printOptions := { quote } }

end TransformOptions

end Concise
