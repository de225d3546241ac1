import Concise.Text.Span

/-!
What stands between tokens: blanks, line terminators and comments.

* `Trivia.scan` reads it up to the next token and keeps the comments that lead that token.
* A comment *trails* the token before it, and is dropped, if it stands on the line of that token and
  the line ends after it. A line comment right after `=` or `(` leads all the same.
* A comment that leads remembers whether a line terminator stood somewhere before it since the last
  token, and whether one followed it.
-/

namespace Concise

/-- A comment that leads a token. -/
structure Comment where
  /-- The whole comment with its delimiters. -/
  text : String
  isBlock : Bool
  newlineBefore : Bool
  newlineAfter : Bool
  /-- The offset of the token that the comment leads. -/
  target : Nat
deriving DecidableEq, Inhabited

namespace Trivia

/-- The characters that end a line. -/
def isLineTerminator (c : Char) : Bool :=
  c == '\n' || c == '\r' || c == '\u2028' || c == '\u2029'

/-- The blanks, line terminators apart. -/
def isBlank (c : Char) : Bool :=
  c == ' ' || c == '\t' || c == '\x0b' || c == '\x0c' || c == '\u0085' || c == '\u00a0' ||
    c == '\u1680' || c == '\u180e' || ('\u2000' ≤ c && c ≤ '\u200b') || c == '\u202f' ||
    c == '\u205f' || c == '\u3000' || c == '\ufeff'

/-- Where the scan stands: between comments or inside one, whose text so far is kept reversed. -/
inductive Mode where
  | outside
  | line (text : List Char)
  | block (text : List Char)

/-- What the scan has seen since the last token. -/
structure Seen where
  /-- The comments that still may lead the next token, the last one first. -/
  pending : List Comment
  /-- A line has ended outside block comments, or no token precedes. -/
  lineEnded : Bool
  /-- A line terminator was met anywhere. -/
  newline : Bool

/-- A line has ended: the last comment is followed by a line terminator, and comments on the line of
the token before them trail it. -/
def Seen.endLine (seen : Seen) : Seen :=
  { pending :=
      match seen.pending with
      | [] => []
      | c :: cs => if seen.lineEnded then { c with newlineAfter := true } :: cs else []
    lineEnded := true
    newline := true }

/-- A block comment has been read. -/
def Seen.addBlock (seen : Seen) (text : List Char) : Seen :=
  { seen with
    pending :=
      { text := String.ofList text.reverse, isBlock := true, newlineBefore := seen.lineEnded,
        newlineAfter := false, target := 0 } :: seen.pending
    newline := seen.newline || text.any isLineTerminator }

/-- A line comment has been read; `opens` says that `=` or `(` was the token before. -/
def Seen.addLine (opens : Bool) (seen : Seen) (text : List Char) : Seen :=
  { seen with
    pending :=
      if seen.lineEnded || opens then
        { text := String.ofList text.reverse, isBlock := false, newlineBefore := seen.lineEnded,
          newlineAfter := true, target := 0 } :: seen.pending
      else []
    lineEnded := true }

/-- Reads blanks and comments. Gives what was seen, the offset of what follows, and what follows;
nothing if a block comment does not end. In a script, `<!--` begins a line comment, and so does
`-->` at the start of a line. -/
def scan (isScript opens : Bool) : Mode → Seen → Nat → List Char → Option (Seen × Nat × List Char)
  | .outside, seen, offset, [] => some (seen, offset, [])
  | .line text, seen, offset, [] => some (seen.addLine opens text, offset, [])
  | .block _, _, _, [] => none
  | .outside, seen, offset, '/' :: '/' :: cs =>
      scan isScript opens (.line ['/', '/']) seen (offset + 2) cs
  | .outside, seen, offset, '/' :: '*' :: cs =>
      scan isScript opens (.block ['*', '/']) seen (offset + 2) cs
  | .outside, seen, offset, '<' :: '!' :: '-' :: '-' :: cs =>
      if isScript then scan isScript opens (.line ['-', '-', '!', '<']) seen (offset + 4) cs
      else some (seen, offset, '<' :: '!' :: '-' :: '-' :: cs)
  | .outside, seen, offset, '-' :: '-' :: '>' :: cs =>
      if isScript && seen.newline then
        scan isScript opens (.line ['>', '-', '-']) seen (offset + 3) cs
      else some (seen, offset, '-' :: '-' :: '>' :: cs)
  | .outside, seen, offset, c :: cs =>
      if isLineTerminator c then scan isScript opens .outside seen.endLine (offset + c.utf8Size) cs
      else if isBlank c then scan isScript opens .outside seen (offset + c.utf8Size) cs
      else some (seen, offset, c :: cs)
  | .line text, seen, offset, c :: cs =>
      if isLineTerminator c then
        scan isScript opens .outside (seen.addLine opens text).endLine (offset + c.utf8Size) cs
      else scan isScript opens (.line (c :: text)) seen (offset + c.utf8Size) cs
  | .block text, seen, offset, '*' :: '/' :: cs =>
      scan isScript opens .outside (seen.addBlock ('/' :: '*' :: text)) (offset + 2) cs
  | .block text, seen, offset, c :: cs =>
      scan isScript opens (.block (c :: text)) seen (offset + c.utf8Size) cs

end Trivia

end Concise
