import Concise.Token.Trivia
import Concise.Token.Numeral

/-!
Texts between delimiters: string literals, the pieces of templates, regular expressions.

* A string has a *value*, in which escapes are resolved. Two `\u` escapes that form a surrogate pair
  give one character. A lone surrogate cannot stand in a text, so a string that has one holds
  U+FFFD and its four hexadecimal digits in its place, and U+FFFD followed by `fffd` for every real
  U+FFFD.
* A template piece is kept raw, with every line end written as a line feed; its escapes are only
  checked, and a tagged template may hold malformed ones.
* A regular expression ends at the first slash outside brackets; its flags are distinct.
-/

namespace Concise.Quoted

/-- One unit of a string's value. -/
inductive TextUnit where
  | char (c : Char)
  | loneSurrogate (code : Nat)

/-- The number that hexadecimal digits write. -/
def hexValue (cs : List Char) : Nat :=
  cs.foldl (fun n c => 16 * n + Numeral.digitValue c) 0

/-- Takes exactly `n` hexadecimal digits. -/
def takeHex (n : Nat) (cs : List Char) : Option (Nat × List Char) :=
  let run := cs.take n
  if run.length == n && run.all Numeral.isHexDigit then some (hexValue run, cs.drop n) else none

/-- Takes hexadecimal digits up to a closing brace, at most U+10FFFF. -/
def takeBraced (cs : List Char) : Option (Nat × List Char) :=
  let run := cs.takeWhile Numeral.isHexDigit
  match cs.dropWhile Numeral.isHexDigit with
  | '}' :: rest =>
      if run.isEmpty || 0x10FFFF < hexValue run then none else some (hexValue run, rest)
  | _ => none

/-- Whether a code is that of a surrogate. -/
def isSurrogate (n : Nat) : Bool := 0xD800 ≤ n && n ≤ 0xDFFF

/-- Whether a code is that of the first half of a surrogate pair. -/
def isHighSurrogate (n : Nat) : Bool := 0xD800 ≤ n && n ≤ 0xDBFF

/-- Whether a code is that of the second half of a surrogate pair. -/
def isLowSurrogate (n : Nat) : Bool := 0xDC00 ≤ n && n ≤ 0xDFFF

/-- The unit with a given code. -/
def TextUnit.ofCode (n : Nat) : TextUnit :=
  if isSurrogate n then .loneSurrogate n else .char (Char.ofNat n)

/-- Reads what follows `\u` in a string. -/
def readUnicode : List Char → Option (TextUnit × List Char)
  | '{' :: cs => (takeBraced cs).map fun r => (.ofCode r.1, r.2)
  | cs => do
      let (high, rest) ← takeHex 4 cs
      if isHighSurrogate high then
        match rest with
        | '\\' :: 'u' :: more =>
            match takeHex 4 more with
            | some (low, rest') =>
                if isLowSurrogate low then
                  some (.char (Char.ofNat (0x10000 + (high - 0xD800) * 0x400 + (low - 0xDC00))),
                    rest')
                else some (.loneSurrogate high, rest)
            | none => some (.loneSurrogate high, rest)
        | _ => some (.loneSurrogate high, rest)
      else some (.ofCode high, rest)

/-- Reads an octal escape: up to three digits, with a value below 256. -/
def readOctal (cs : List Char) : TextUnit × List Char :=
  let run := (cs.take 3).takeWhile Numeral.isOctalDigit
  let run :=
    match run with
    | c :: _ => if '4' ≤ c then run.take 2 else run
    | [] => run
  (.char (Char.ofNat (run.foldl (fun n c => 8 * n + Numeral.digitValue c) 0)), cs.drop run.length)

/-- Reads what follows a backslash in a string: at most one unit. -/
def readEscape : List Char → Option (Option TextUnit × List Char)
  | [] => none
  | 'n' :: cs => some (some (.char '\n'), cs)
  | 't' :: cs => some (some (.char '\t'), cs)
  | 'r' :: cs => some (some (.char '\r'), cs)
  | 'b' :: cs => some (some (.char '\x08'), cs)
  | 'f' :: cs => some (some (.char '\x0c'), cs)
  | 'v' :: cs => some (some (.char '\x0b'), cs)
  | 'x' :: cs => (takeHex 2 cs).map fun r => (some (.ofCode r.1), r.2)
  | 'u' :: cs => (readUnicode cs).map fun r => (some r.1, r.2)
  | '\r' :: '\n' :: cs => some (none, cs)
  | c :: cs =>
      if Trivia.isLineTerminator c then some (none, cs)
      else if Numeral.isOctalDigit c then
        let (unit, rest) := readOctal (c :: cs)
        some (some unit, rest)
      else some (some (.char c), cs)

/-- Reads the units of a string up to its closing quote; the fuel bounds the number of units. -/
def readUnits (quote : Char) : Nat → List Char → Option (List TextUnit × List Char)
  | 0, _ => none
  | _, [] => none
  | n + 1, c :: cs =>
      if c == quote then some ([], cs)
      else if c == '\n' || c == '\r' then none
      else if c == '\\' then do
        let (unit, rest) ← readEscape cs
        let (units, rest) ← readUnits quote n rest
        match unit with
        | some u => return (u :: units, rest)
        | none => return (units, rest)
      else do
        let (units, rest) ← readUnits quote n cs
        return (.char c :: units, rest)

/-- A lower-case hexadecimal digit. -/
def hexChar (n : Nat) : Char :=
  if n < 10 then Char.ofNat ('0'.toNat + n) else Char.ofNat ('a'.toNat + n - 10)

/-- Four lower-case hexadecimal digits. -/
def hex4 (n : Nat) : List Char :=
  [hexChar (n / 4096 % 16), hexChar (n / 256 % 16), hexChar (n / 16 % 16), hexChar (n % 16)]

/-- Whether a unit is a lone surrogate. -/
def TextUnit.isLone : TextUnit → Bool
  | .loneSurrogate _ => true
  | .char _ => false

/-- The characters that hold a unit in a string with (`true`) or without lone surrogates. -/
def TextUnit.chars (hasLone : Bool) : TextUnit → List Char
  | .loneSurrogate n => '\ufffd' :: hex4 n
  | .char c => if hasLone && c == '\ufffd' then '\ufffd' :: hex4 0xFFFD else [c]

/-- The value of a string, and whether it holds lone surrogates. -/
def value (units : List TextUnit) : String × Bool :=
  let hasLone := units.any TextUnit.isLone
  (String.ofList (units.flatMap (TextUnit.chars hasLone)), hasLone)

/-- Reads a string after its opening quote. -/
def readString (quote : Char) (cs : List Char) : Option (String × Bool × List Char) := do
  let (units, rest) ← readUnits quote (cs.length + 1) cs
  let (text, hasLone) := value units
  return (text, hasLone, rest)

/-! ### Templates -/

/-- A piece of a template, up to an expression or the end. -/
structure TemplatePiece where
  raw : String
  /-- All escapes are well formed. -/
  isValid : Bool
  /-- The template ends after this piece. -/
  isLast : Bool

/-- Whether the escape after a backslash is well formed in a template. -/
def templateEscapeFits : List Char → Bool
  | [] => false
  | '0' :: c :: _ => !Identifier.isAsciiDigit c
  | 'x' :: cs => (takeHex 2 cs).isSome
  | 'u' :: '{' :: cs => (takeBraced cs).isSome
  | 'u' :: cs => (takeHex 4 cs).isSome
  | c :: _ => !('1' ≤ c && c ≤ '9')

/-- Reads a template piece; `raw` holds the text so far, reversed. -/
def readPiece (raw : List Char) (isValid : Bool) : List Char → Option (TemplatePiece × List Char)
  | [] => none
  | '`' :: cs => some (⟨String.ofList raw.reverse, isValid, true⟩, cs)
  | '$' :: '{' :: cs => some (⟨String.ofList raw.reverse, isValid, false⟩, cs)
  | '\r' :: '\n' :: cs => readPiece ('\n' :: raw) isValid cs
  | '\r' :: cs => readPiece ('\n' :: raw) isValid cs
  | ['\\'] => none
  | '\\' :: '\r' :: '\n' :: cs => readPiece ('\n' :: '\\' :: raw) isValid cs
  | '\\' :: '\r' :: cs => readPiece ('\n' :: '\\' :: raw) isValid cs
  | '\\' :: c :: cs => readPiece (c :: '\\' :: raw) (isValid && templateEscapeFits (c :: cs)) cs
  | c :: cs => readPiece (c :: raw) isValid cs

/-! ### Regular expressions -/

/-- Reads the body of a regular expression after its opening slash. -/
def readPattern (inClass : Bool) (body : List Char) : List Char → Option (List Char × List Char)
  | [] => none
  | ['\\'] => none
  | '\\' :: c :: cs =>
      if Trivia.isLineTerminator c then none else readPattern inClass (c :: '\\' :: body) cs
  | c :: cs =>
      if Trivia.isLineTerminator c then none
      else if c == '/' && !inClass then some (body.reverse, cs)
      else if c == '[' then readPattern true (c :: body) cs
      else if c == ']' then readPattern false (c :: body) cs
      else readPattern inClass (c :: body) cs

/-- Whether flags are known and distinct. -/
def flagsFit (flags : List Char) : Bool :=
  flags.all (fun c => "dgimsuvy".toList.contains c) && flags.eraseDups.length == flags.length

/-- Reads a regular expression after its opening slash. -/
def readRegularExpression (cs : List Char) : Option (String × String × List Char) := do
  let (body, rest) ← readPattern false [] cs
  let flags := rest.takeWhile Identifier.isPart
  if body.isEmpty || !flagsFit flags then none
  else return (String.ofList body, String.ofList flags, rest.dropWhile Identifier.isPart)

end Concise.Quoted
