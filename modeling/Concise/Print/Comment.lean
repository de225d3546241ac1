import Concise.Print.Output

/-!
Printed comments. A comment is printed where the token that it leads begins something that keeps
comments; elsewhere it is lost.
-/

namespace Concise.Print

/-- The comments that lead the token at an offset. -/
def commentsAt (offset : Nat) : Printer (List Comment) := do
  return (← get).comments.filter fun c => c.target == offset

/-- Whether comments lead the token at an offset. -/
def hasComments (offset : Nat) : Printer Bool := do
  return !(← commentsAt offset).isEmpty

/-- Takes the comments that lead the token at an offset. -/
def takeComments (offset : Nat) : Printer (List Comment) := do
  let comments ← commentsAt offset
  modify fun out => { out with comments := out.comments.filter fun c => c.target != offset }
  return comments

/-- Splits a text at its line ends. -/
def lines : List Char → List (List Char)
  | [] => [[]]
  | '\r' :: '\n' :: cs => [] :: lines cs
  | c :: cs =>
      if Trivia.isLineTerminator c then [] :: lines cs
      else
        match lines cs with
        | first :: others => (c :: first) :: others
        | [] => [[c]]

/-- Whether a line ends a block comment. -/
def endsBlock (line : List Char) : Bool :=
  match line.reverse with
  | '/' :: '*' :: _ => true
  | _ => false

/-- Whether a line begins a block comment. -/
def beginsBlock : List Char → Bool
  | '/' :: '*' :: _ => true
  | _ => false

/-- Whether a character is white space at the start of a line. -/
def isSpace (c : Char) : Bool := Trivia.isBlank c || Trivia.isLineTerminator c

/-- Prints a comment. The lines of a block comment lose their blanks at the left and are indented.
-/
def comment (c : Comment) : Printer Unit :=
  if c.isBlock then
    (lines c.text.toList).forM fun line => do
      if !beginsBlock line then indentation
      chars (line.dropWhile isSpace)
      if !endsBlock line then newline
  else text c.text

/-- Ends the last of some comments. -/
def endComments (c : Comment) : Printer Unit := do
  if !c.isBlock || c.newlineAfter then newline
  else modify fun out => { out with blankNext := true }

/-- Prints comments after the first. -/
def furtherComments : Comment → List Comment → Printer Unit
  | previous, [] => endComments previous
  | _, c :: cs => do
      if c.newlineBefore then
        newline
        indentation
      comment c
      furtherComments c cs

/-- Prints comments before a statement or another thing that keeps them. -/
def comments : List Comment → Printer Unit
  | [] => pure ()
  | c :: cs => do
      if c.newlineBefore then
        match ← last? with
        | some '\n' => indentation
        | some '\t' => pure ()
        | some _ => do
            newline
            indentation
        | none => pure ()
      else indentation
      comment c
      furtherComments c cs

/-- Prints the comments that lead the token at an offset. -/
def leadingComments (offset : Nat) : Printer Unit := do
  comments (← takeComments offset)

/-- Prints the comments that lead an argument, each on a line of its own; says whether there were
any. -/
def argumentComments (offset : Nat) : Printer Bool := do
  match ← takeComments offset with
  | [] => return false
  | found => do
      found.forM fun c => do
        newline
        indentation
        comment c
      newline
      return true

end Concise.Print
