import Concise.Token.Quoted

/-!
JSON texts, read strictly: no comments, no commas at the end, nothing after the value.

* `JsonValue.parse?` reads a text.
* The fields of an object are kept in order, repeated ones included. A string that holds a lone
  surrogate is legal where nobody needs its text, so a string has a text only perhaps.
* `JsonValue.quote` writes a string.
-/

namespace Concise

/-- A JSON value. -/
inductive JsonValue where
  | null
  | boolean (value : Bool)
  /-- A number, whose value nobody needs. -/
  | number
  /-- A string; it has no text if it holds a lone surrogate. -/
  | string (text : Option String)
  | array (items : List JsonValue)
  /-- The fields in order. -/
  | object (fields : List (Option String × JsonValue))
deriving Inhabited

namespace JsonValue

/-- The blanks between tokens. -/
def isBlank (c : Char) : Bool := c == ' ' || c == '\n' || c == '\t' || c == '\r'

/-- Drops blanks. -/
def skip (cs : List Char) : List Char := cs.dropWhile isBlank

/-- The character of a simple escape. -/
def simpleEscape? : Char → Option Char
  | '"' => some '"'
  | '\\' => some '\\'
  | '/' => some '/'
  | 'b' => some '\x08'
  | 'f' => some '\x0c'
  | 'n' => some '\n'
  | 'r' => some '\r'
  | 't' => some '\t'
  | _ => none

/-- Reads a string after its opening quote: its characters and surrogates, reversed. -/
def stringTail : Nat → List Quoted.TextUnit → List Char →
    Option (List Quoted.TextUnit × List Char)
  | 0, _, _ => none
  | _ + 1, _, [] => none
  | _ + 1, seen, '"' :: rest => some (seen, rest)
  | n + 1, seen, '\\' :: 'u' :: rest => do
      let (code, rest) ← Quoted.takeHex 4 rest
      match seen, Quoted.isLowSurrogate code with
      | .loneSurrogate high :: before, true =>
          if Quoted.isHighSurrogate high then
            let c := Char.ofNat (0x10000 + (high - 0xD800) * 0x400 + (code - 0xDC00))
            stringTail n (.char c :: before) rest
          else stringTail n (.loneSurrogate code :: seen) rest
      | _, _ =>
          if Quoted.isSurrogate code then stringTail n (.loneSurrogate code :: seen) rest
          else stringTail n (.char (Char.ofNat code) :: seen) rest
  | n + 1, seen, '\\' :: c :: rest => do
      stringTail n (.char (← simpleEscape? c) :: seen) rest
  | n + 1, seen, c :: rest =>
      if c.toNat < 0x20 || c == '\\' then none else stringTail n (.char c :: seen) rest

/-- The text of a string, unless it holds a lone surrogate. -/
def text? (units : List Quoted.TextUnit) : Option String :=
  (units.reverse.mapM char?).map String.ofList
where
  char? : Quoted.TextUnit → Option Char
    | .char c => some c
    | .loneSurrogate _ => none

/-- Takes one or more digits. -/
def takeDigits (cs : List Char) : Option (List Char) :=
  match cs with
  | c :: rest =>
      if Identifier.isAsciiDigit c then some (rest.dropWhile Identifier.isAsciiDigit) else none
  | [] => none

/-- Takes the fraction of a number, if there is one. -/
def takeFraction : List Char → Option (List Char)
  | '.' :: rest => takeDigits rest
  | cs => some cs

/-- Takes the exponent of a number, if there is one. -/
def takeExponent : List Char → Option (List Char)
  | c :: rest =>
      if c == 'e' || c == 'E' then
        match rest with
        | '+' :: digits => takeDigits digits
        | '-' :: digits => takeDigits digits
        | digits => takeDigits digits
      else some (c :: rest)
  | [] => some []

/-- Takes a number; a leading zero stands alone. -/
def takeNumber (cs : List Char) : Option (List Char) := do
  let cs :=
    match cs with
    | '-' :: rest => rest
    | _ => cs
  let rest ←
    match cs with
    | '0' :: rest => if (takeDigits rest).isSome then none else some rest
    | _ => takeDigits cs
  takeExponent (← takeFraction rest)

/-- Takes a given word. -/
def takeWord (word : String) (cs : List Char) : Option (List Char) :=
  let n := word.toList.length
  if cs.take n == word.toList then some (cs.drop n) else none

mutual

/-- Reads a value at the start of a text; the number bounds the steps. -/
def value : Nat → List Char → Option (JsonValue × List Char)
  | 0, _ => none
  | n + 1, cs =>
      match cs with
      | '"' :: rest =>
          (stringTail (rest.length + 1) [] rest).map fun (units, r) => (string (text? units), r)
      | 'n' :: _ => (takeWord "null" cs).map fun r => (null, r)
      | 't' :: _ => (takeWord "true" cs).map fun r => (boolean true, r)
      | 'f' :: _ => (takeWord "false" cs).map fun r => (boolean false, r)
      | '[' :: rest =>
          match skip rest with
          | ']' :: after => some (array [], after)
          | inner => (items n inner).map fun (xs, r) => (array xs, r)
      | '{' :: rest =>
          match skip rest with
          | '}' :: after => some (object [], after)
          | inner => (fields n inner).map fun (xs, r) => (object xs, r)
      | _ => (takeNumber cs).map fun r => (number, r)

/-- Reads the items of an array up to its closing bracket. -/
def items : Nat → List Char → Option (List JsonValue × List Char)
  | 0, _ => none
  | n + 1, cs => do
      let (first, rest) ← value n cs
      match skip rest with
      | ']' :: after => return ([first], after)
      | ',' :: more =>
          let (others, after) ← items n (skip more)
          return (first :: others, after)
      | _ => none

/-- Reads the fields of an object up to its closing brace. -/
def fields : Nat → List Char → Option (List (Option String × JsonValue) × List Char)
  | 0, _ => none
  | n + 1, cs =>
      match cs with
      | '"' :: rest => do
          let (units, rest) ← stringTail (rest.length + 1) [] rest
          match skip rest with
          | ':' :: inner =>
              let (first, rest) ← value n (skip inner)
              match skip rest with
              | '}' :: after => return ([(text? units, first)], after)
              | ',' :: more =>
                  let (others, after) ← fields n (skip more)
                  return ((text? units, first) :: others, after)
              | _ => none
          | _ => none
      | _ => none

end

/-- Reads a whole text. -/
def parse? (text : String) : Option JsonValue := do
  let cs := text.toList
  let (result, rest) ← value (cs.length + 1) (skip cs)
  if (skip rest).isEmpty then return result else none

/-! ### Views -/

/-- The text of a string. -/
def asString? : JsonValue → Option String
  | string text => text
  | _ => none

/-- The texts of an array of strings. -/
def asStrings? : JsonValue → Option (List String)
  | array items => items.mapM asString?
  | _ => none

/-- The values of the named fields, each of which may occur once; other fields are ignored, but
their names must be texts. -/
def lookUp? (names : List String) (fields : List (Option String × JsonValue)) :
    Option (List (Option JsonValue)) := do
  let fields ← fields.mapM fun (name, value) => name.map fun name => (name, value)
  names.mapM fun name =>
    match fields.filter fun field => field.1 == name with
    | [] => some none
    | [field] => some (some field.2)
    | _ => none

/-- The values of a record's fields. A record may also be an array of the first of its fields. -/
def record? (names : List String) : JsonValue → Option (List (Option JsonValue))
  | object fields => lookUp? names fields
  | array items =>
      if items.length ≤ names.length then
        some (items.map some ++ List.replicate (names.length - items.length) none)
      else none
  | _ => none

/-! ### Writing -/

/-- The hexadecimal digits of a small number, at least two. -/
def hexByte (n : Nat) : List Char :=
  let digits := Nat.toDigits 16 n
  List.replicate (2 - digits.length) '0' ++ digits

/-- The spelling of a character in a string. -/
def escape (c : Char) : List Char :=
  match c with
  | '"' => ['\\', '"']
  | '\\' => ['\\', '\\']
  | '\n' => ['\\', 'n']
  | '\r' => ['\\', 'r']
  | '\t' => ['\\', 't']
  | '\x08' => ['\\', 'b']
  | '\x0c' => ['\\', 'f']
  | c => if c.toNat < 0x20 then '\\' :: 'u' :: '0' :: '0' :: hexByte c.toNat else [c]

/-- A string in quotes. -/
def quote (text : String) : String :=
  String.ofList ('"' :: (text.toList.flatMap escape ++ ['"']))

/-- An object of fields that are already written. -/
def writeObject (fields : List (String × String)) : String :=
  "\x7b" ++ ",".intercalate (fields.map fun (name, value) => quote name ++ ":" ++ value) ++ "\x7d"

end JsonValue

end Concise
