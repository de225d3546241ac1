import Concise.Text.Identifier

/-!
Spellings of numbers. `Numeral.read` takes the longest numeral at the start of a text and gives its
spelling, which a decimal, hexadecimal, octal or binary number or a big integer may have:

* digits may be parted by single underscores, except after a leading zero;
* a numeral that begins with zero and a digit is octal if all its digits are, else decimal;
* no letter, digit or escape may follow directly.
-/

namespace Concise.Numeral

/-- Hexadecimal digits. -/
def isHexDigit (c : Char) : Bool :=
  ('0' ≤ c && c ≤ '9') || ('a' ≤ c && c ≤ 'f') || ('A' ≤ c && c ≤ 'F')

/-- The value of a hexadecimal digit. -/
def digitValue (c : Char) : Nat :=
  if '0' ≤ c && c ≤ '9' then c.toNat - '0'.toNat
  else if 'a' ≤ c && c ≤ 'f' then c.toNat - 'a'.toNat + 10
  else if 'A' ≤ c && c ≤ 'F' then c.toNat - 'A'.toNat + 10
  else 0

/-- Octal digits. -/
def isOctalDigit (c : Char) : Bool := '0' ≤ c && c ≤ '7'

/-- Binary digits. -/
def isBinaryDigit (c : Char) : Bool := c == '0' || c == '1'

/-- Whether underscores stand only between digits. -/
def separatorsFit : List Char → Bool
  | [] => true
  | ['_'] => false
  | '_' :: '_' :: _ => false
  | _ :: cs => separatorsFit cs

/-- Takes digits and separators; nothing if there is no digit or a separator does not fit. -/
def takeDigits (isDigit : Char → Bool) (cs : List Char) : Option (List Char × List Char) :=
  let run := cs.takeWhile fun c => isDigit c || c == '_'
  match run with
  | [] => none
  | '_' :: _ => none
  | _ => if separatorsFit run then some (run, cs.dropWhile fun c => isDigit c || c == '_') else none

/-- Whether a numeral may end before this text. -/
def mayEndBefore : List Char → Bool
  | [] => true
  | c :: _ => !(Identifier.isPart c || c == '\\')

/-- Takes an exponent if there is one; nothing if it has no digits. -/
def takeExponent : List Char → Option (List Char × List Char)
  | [] => some ([], [])
  | c :: cs =>
      if c == 'e' || c == 'E' then
        match cs with
        | s :: ds =>
            if s == '+' || s == '-' then
              (takeDigits Identifier.isAsciiDigit ds).map fun r => (c :: s :: r.1, r.2)
            else (takeDigits Identifier.isAsciiDigit cs).map fun r => (c :: r.1, r.2)
        | [] => none
      else some ([], c :: cs)

/-- Takes a fraction and an exponent after the integer part. -/
def takeFraction (cs : List Char) : Option (List Char × List Char) := do
  let (fraction, rest) ←
    match cs with
    | '.' :: ds =>
        match takeDigits Identifier.isAsciiDigit ds with
        | some (run, rest) => some ('.' :: run, rest)
        | none =>
            match ds with
            | '_' :: _ => none
            | _ =>
              if (ds.takeWhile Identifier.isAsciiDigit).isEmpty then some (['.'], ds) else none
    | _ => some ([], cs)
  let (exponent, rest) ← takeExponent rest
  return (fraction ++ exponent, rest)

/-- Takes the digits of a number with a radix mark, and the mark of a big integer. -/
def takeRadix (mark : Char) (isDigit : Char → Bool) (cs : List Char) :
    Option (List Char × Bool × List Char) := do
  let (run, rest) ← takeDigits isDigit cs
  match rest with
  | 'n' :: rest => return ('0' :: mark :: run, true, rest)
  | _ => return ('0' :: mark :: run, false, rest)

/-- Takes a numeral: its spelling without the mark of a big integer, whether it is one, and what
follows. -/
def take (cs : List Char) : Option (List Char × Bool × List Char) :=
  match cs with
  | '0' :: 'x' :: ds => takeRadix 'x' isHexDigit ds
  | '0' :: 'X' :: ds => takeRadix 'X' isHexDigit ds
  | '0' :: 'o' :: ds => takeRadix 'o' isOctalDigit ds
  | '0' :: 'O' :: ds => takeRadix 'O' isOctalDigit ds
  | '0' :: 'b' :: ds => takeRadix 'b' isBinaryDigit ds
  | '0' :: 'B' :: ds => takeRadix 'B' isBinaryDigit ds
  | '.' :: ds => do
      let (run, rest) ← takeDigits Identifier.isAsciiDigit ds
      let (exponent, rest) ← takeExponent rest
      return ('.' :: run ++ exponent, false, rest)
  | '0' :: d :: ds =>
      if Identifier.isAsciiDigit d then
        let run := ('0' :: d :: ds).takeWhile Identifier.isAsciiDigit
        let rest := ('0' :: d :: ds).dropWhile Identifier.isAsciiDigit
        if run.all isOctalDigit then some (run, false, rest)
        else do
          let (fraction, rest) ← takeFraction rest
          return (run ++ fraction, false, rest)
      else if d == 'n' then some (['0'], true, ds)
      else if d == '_' then none
      else do
        let (fraction, rest) ← takeFraction (d :: ds)
        return ('0' :: fraction, false, rest)
  | _ => do
      let (run, rest) ← takeDigits Identifier.isAsciiDigit cs
      match rest with
      | 'n' :: rest => return (run, true, rest)
      | _ => do
          let (fraction, rest) ← takeFraction rest
          return (run ++ fraction, false, rest)

/-- Reads a numeral at the start of a text. -/
def read (cs : List Char) : Option (List Char × Bool × List Char) := do
  let (run, isBig, rest) ← take cs
  if mayEndBefore rest then return (run, isBig, rest) else none

end Concise.Numeral
