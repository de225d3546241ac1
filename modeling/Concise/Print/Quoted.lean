import Concise.Options
import Concise.Text.Identifier

/-!
Printed string literals. A string is printed from its value in the configured quotes. Escaped are
that quote, the backslash, control characters that have a short escape, a few blanks that would be
hard to see, and the slash of `</script`. A lone surrogate is printed as its escape.
-/

namespace Concise.Print

/-- The end of a script element, which may not stand inside a script. -/
def scriptEnd : List Char := "</script".toList

/-- Whether a text begins with the end of a script element, in any case. -/
def beginsScriptEnd (cs : List Char) : Bool :=
  (cs.take scriptEnd.length).map Char.toLower == scriptEnd

/-- Whether a text begins with a decimal digit. -/
def beginsDigit : List Char → Bool
  | c :: _ => Identifier.isAsciiDigit c
  | [] => false

/-- The spelling of a character of a string; `rest` is what follows it. -/
def escape (quote : Char) (c : Char) (rest : List Char) : List Char :=
  if c == quote then ['\\', c]
  else
    match c with
    | '\\' => ['\\', '\\']
    | '\n' => ['\\', 'n']
    | '\r' => ['\\', 'r']
    | '\x08' => ['\\', 'b']
    | '\x0c' => ['\\', 'f']
    | '\x0b' => ['\\', 'v']
    | '\x00' => if beginsDigit rest then ['\\', 'x', '0', '0'] else ['\\', '0']
    | '\x07' => ['\\', 'x', '0', '7']
    | '\x1b' => ['\\', 'x', '1', 'B']
    | '\u00a0' => ['\\', 'x', 'A', '0']
    | '\u2028' => ['\\', 'u', '2', '0', '2', '8']
    | '\u2029' => ['\\', 'u', '2', '0', '2', '9']
    | c => if c == '<' && beginsScriptEnd (c :: rest) then ['<', '\\'] else [c]

/-- The spelling of a string's value; with lone surrogates, U+FFFD begins the four digits of one. -/
def quotedFrom (quote : Char) (hasLone : Bool) : List Char → List Char
  | [] => []
  | '\ufffd' :: a :: b :: c :: d :: rest =>
      if hasLone then
        (if [a, b, c, d] == ['f', 'f', 'f', 'd'] then ['\ufffd'] else ['\\', 'u', a, b, c, d]) ++
          quotedFrom quote hasLone rest
      else '\ufffd' :: quotedFrom quote hasLone (a :: b :: c :: d :: rest)
  | c :: rest => escape quote c rest ++ quotedFrom quote hasLone rest

/-- A string literal. -/
def quoted (style : QuoteStyle) (value : String) (hasLone : Bool) : String :=
  String.ofList (style.quote :: (quotedFrom style.quote hasLone value.toList ++ [style.quote]))

/-- The first unescaped quote in the text of a directive. -/
def firstQuote? : List Char → Option Char
  | [] => none
  | '\\' :: _ :: rest => firstQuote? rest
  | c :: rest => if c == '"' || c == '\'' then some c else firstQuote? rest

/-- A directive in the configured quotes, unless its text holds a quote: then the other kind stands
around it. -/
def directive (style : QuoteStyle) (raw : String) : String :=
  let style :=
    match firstQuote? raw.toList with
    | some '"' => QuoteStyle.single
    | some _ => QuoteStyle.double
    | none => style
  style.quote.toString ++ raw ++ style.quote.toString

end Concise.Print
