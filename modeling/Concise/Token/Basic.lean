import Concise.Token.Quoted

/-!
Tokens. A cursor stands after the last token that was taken; `Cursor.token` reads the next one.

* Words are identifiers and keywords alike, with their escapes resolved.
* A mark is the longest punctuator, except that `<` and `>` are always taken alone: the grammar
  joins them to longer operators where it wants an operator.
* A slash is always a mark; the grammar asks for a regular expression where one may stand. Likewise
  it asks for the pieces of a template after a backtick, and for the texts of markup.
-/

namespace Concise

/-- What a token is. -/
inductive Lexeme where
  | word (text : String) (isEscaped : Bool)
  | privateWord (text : String)
  | number (raw : String)
  | bigInteger (raw : String)
  | string (value raw : String) (hasLone : Bool)
  | mark (symbol : String)
  | finish
deriving DecidableEq, Inhabited

/-- The mark that opens a block or an object. -/
@[match_pattern] abbrev Lexeme.openBrace : Lexeme := .mark "\x7b"

/-- The mark that closes a block or an object. -/
@[match_pattern] abbrev Lexeme.closeBrace : Lexeme := .mark "\x7d"

/-- A token with its place and surroundings. -/
structure Token where
  lexeme : Lexeme
  start : Nat
  stop : Nat
  /-- A line terminator stands between the token and the one before. -/
  newlineBefore : Bool
  /-- The comments that lead the token. -/
  comments : List Comment
  /-- The text from the token on. -/
  here : List Char
  /-- The text after the token. -/
  after : List Char
deriving Inhabited

/-- A place between two tokens. -/
structure Cursor where
  rest : List Char
  offset : Nat
  /-- The text is a script, not a module. -/
  isScript : Bool
  /-- No token has been taken yet. -/
  isFresh : Bool
  /-- The last token is `=` or `(`. -/
  opens : Bool
  /-- The comments that lead the tokens taken, the last one first. -/
  comments : List Comment
deriving Inhabited

namespace Lexeme

/-- Reads what follows `\u` in a word. -/
def readCode : List Char → Option (Char × List Char)
  | '{' :: cs => (Quoted.takeBraced cs).map fun r => (Char.ofNat r.1, r.2)
  | cs => (Quoted.takeHex 4 cs).map fun r => (Char.ofNat r.1, r.2)

/-- Reads the rest of a word from an escape on, if one follows. The fuel bounds the number of
escapes. -/
def readEscapes : Nat → List Char → Option (List Char × List Char)
  | n + 1, '\\' :: 'u' :: code => do
      let (c, rest) ← readCode code
      if Identifier.isPart c then
        let run := rest.takeWhile Identifier.isPart
        let (tail, rest) ← readEscapes n (rest.dropWhile Identifier.isPart)
        return (c :: run ++ tail, rest)
      else none
  | _, '\\' :: _ => none
  | _, rest => some ([], rest)

/-- Reads the rest of a word: its characters, whether it has escapes, and what follows. -/
def readWordTail (cs : List Char) : Option (List Char × Bool × List Char) :=
  let run := cs.takeWhile Identifier.isPart
  match cs.dropWhile Identifier.isPart with
  | '\\' :: more => do
      let (tail, rest) ← readEscapes (more.length + 1) ('\\' :: more)
      return (run ++ tail, true, rest)
  | rest => some (run, false, rest)

/-- Reads a word at the start of a text. -/
def readWord (cs : List Char) : Option (String × Bool × List Char) :=
  match cs with
  | [] => none
  | '\\' :: 'u' :: code => do
      let (c, rest) ← readCode code
      if Identifier.isStart c then
        let (tail, _, rest) ← readWordTail rest
        return (String.ofList (c :: tail), true, rest)
      else none
  | c :: rest =>
      if Identifier.isStart c then do
        let (tail, isEscaped, rest) ← readWordTail rest
        return (String.ofList (c :: tail), isEscaped, rest)
      else none

/-- Reads a punctuator at the start of a text. -/
def readMark : List Char → Option (String × List Char)
  | '{' :: cs => some ("\x7b", cs)
  | '}' :: cs => some ("\x7d", cs)
  | '(' :: cs => some ("(", cs)
  | ')' :: cs => some (")", cs)
  | '[' :: cs => some ("[", cs)
  | ']' :: cs => some ("]", cs)
  | ';' :: cs => some (";", cs)
  | ',' :: cs => some (",", cs)
  | ':' :: cs => some (":", cs)
  | '~' :: cs => some ("~", cs)
  | '@' :: cs => some ("@", cs)
  | '`' :: cs => some ("`", cs)
  | '<' :: cs => some ("<", cs)
  | '>' :: cs => some (">", cs)
  | '.' :: '.' :: '.' :: cs => some ("...", cs)
  | '.' :: cs => some (".", cs)
  | '?' :: '?' :: '=' :: cs => some ("??=", cs)
  | '?' :: '?' :: cs => some ("??", cs)
  | '?' :: '.' :: c :: cs =>
      if Identifier.isAsciiDigit c then some ("?", '.' :: c :: cs) else some ("?.", c :: cs)
  | '?' :: '.' :: cs => some ("?.", cs)
  | '?' :: cs => some ("?", cs)
  | '=' :: '=' :: '=' :: cs => some ("===", cs)
  | '=' :: '=' :: cs => some ("==", cs)
  | '=' :: '>' :: cs => some ("=>", cs)
  | '=' :: cs => some ("=", cs)
  | '!' :: '=' :: '=' :: cs => some ("!==", cs)
  | '!' :: '=' :: cs => some ("!=", cs)
  | '!' :: cs => some ("!", cs)
  | '+' :: '+' :: cs => some ("++", cs)
  | '+' :: '=' :: cs => some ("+=", cs)
  | '+' :: cs => some ("+", cs)
  | '-' :: '-' :: cs => some ("--", cs)
  | '-' :: '=' :: cs => some ("-=", cs)
  | '-' :: cs => some ("-", cs)
  | '*' :: '*' :: '=' :: cs => some ("**=", cs)
  | '*' :: '*' :: cs => some ("**", cs)
  | '*' :: '=' :: cs => some ("*=", cs)
  | '*' :: cs => some ("*", cs)
  | '/' :: '=' :: cs => some ("/=", cs)
  | '/' :: cs => some ("/", cs)
  | '%' :: '=' :: cs => some ("%=", cs)
  | '%' :: cs => some ("%", cs)
  | '&' :: '&' :: '=' :: cs => some ("&&=", cs)
  | '&' :: '&' :: cs => some ("&&", cs)
  | '&' :: '=' :: cs => some ("&=", cs)
  | '&' :: cs => some ("&", cs)
  | '|' :: '|' :: '=' :: cs => some ("||=", cs)
  | '|' :: '|' :: cs => some ("||", cs)
  | '|' :: '=' :: cs => some ("|=", cs)
  | '|' :: cs => some ("|", cs)
  | '^' :: '=' :: cs => some ("^=", cs)
  | '^' :: cs => some ("^", cs)
  | _ => none

/-- Whether a text begins with a numeral. -/
def beginsNumeral : List Char → Bool
  | '.' :: c :: _ => Identifier.isAsciiDigit c
  | c :: _ => Identifier.isAsciiDigit c
  | [] => false

/-- Reads the token at the start of a text that begins with no blank and no comment. -/
def read (cs : List Char) : Option (Lexeme × List Char) :=
  match cs with
  | [] => some (.finish, [])
  | c :: rest =>
      if Identifier.isStart c || c == '\\' then do
        let (text, isEscaped, rest) ← readWord cs
        return (.word text isEscaped, rest)
      else if beginsNumeral cs then do
        let (raw, isBig, rest) ← Numeral.read cs
        let raw := String.ofList raw
        return (if isBig then .bigInteger raw else .number raw, rest)
      else if c == '"' || c == '\'' then do
        let (value, hasLone, after) ← Quoted.readString c rest
        let raw := rest.take (rest.length - after.length - 1)
        return (.string value (String.ofList raw) hasLone, after)
      else if c == '#' then do
        let (text, _, rest) ← readWord rest
        return (.privateWord text, rest)
      else do
        let (symbol, rest) ← readMark cs
        return (.mark symbol, rest)

end Lexeme

namespace Cursor

/-- The cursor before a whole text. -/
def start (isScript : Bool) (text : List Char) : Cursor :=
  { rest := text, offset := 0, isScript, isFresh := true, opens := false, comments := [] }

/-- The number of bytes of `before` that are not part of its ending `after`. -/
def consumed (before after : List Char) : Nat :=
  byteLength (before.take (before.length - after.length))

/-- The number of bytes that a token takes. -/
def width (here after : List Char) : Lexeme → Nat
  | .word text false => text.utf8ByteSize
  | .mark symbol => symbol.utf8ByteSize
  | .number raw => raw.utf8ByteSize
  | .bigInteger raw => raw.utf8ByteSize + 1
  | .string _ raw _ => raw.utf8ByteSize + 2
  | .finish => 0
  | _ => consumed here after

/-- Reads the next token without taking it. -/
def token (cursor : Cursor) : Option Token := do
  let seen : Trivia.Seen := ⟨[], cursor.isFresh, cursor.isFresh⟩
  let (seen, offset, here) ←
    Trivia.scan cursor.isScript cursor.opens .outside seen cursor.offset cursor.rest
  let (lexeme, after) ← Lexeme.read here
  return {
    lexeme, start := offset, stop := offset + width here after lexeme
    newlineBefore := seen.newline
    comments := seen.pending.map fun c => { c with target := offset }
    here, after }

/-- The cursor after a token. -/
def take (cursor : Cursor) (token : Token) : Cursor :=
  { cursor with
    rest := token.after
    offset := token.stop
    isFresh := false
    opens := token.lexeme == .mark "=" || token.lexeme == .mark "("
    comments := token.comments ++ cursor.comments }

end Cursor

end Concise
