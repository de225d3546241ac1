import Concise.Grammar.Program
import Concise.Print.Quoted

/-!
The output of a printer, and what a printer has to remember of it.

* `Output` holds the text so far, the indentation, and the places that decide about parentheses and
  blanks: where a statement, an arrow function's body or a default export began, and where an
  operator, a number or a regular expression ended.
* `Printer` writes to an output under fixed settings.
* `Mode` says what a tree stands for: a statement of its own, or a part of something that needs
  parentheses around what binds less tightly than its level.
-/

namespace Concise.Print

/-- How tightly an operand has to bind: what binds at most as tightly as the level is put in
parentheses. -/
abbrev Level := Nat

namespace Level

/-- Binds all. -/
def lowest : Level := 0

/-- The comma of a sequence. -/
def comma : Level := 1

/-- A yield expression. -/
def yield : Level := 3

/-- Assignments and arrow functions. -/
def assign : Level := 4

/-- Conditional expressions. -/
def conditional : Level := 5

/-- The operator `??`. -/
def nullish : Level := 6

/-- The operator `||`. -/
def or : Level := 7

/-- The operator `&&`. -/
def and : Level := 8

/-- Comparisons. -/
def compare : Level := 13

/-- Shifts. -/
def shift : Level := 14

/-- Powers. -/
def power : Level := 17

/-- Operators before their operand. -/
def unary : Level := 18

/-- Operators after their operand. -/
def update : Level := 19

/-- The callee of `new`. -/
def construct : Level := 20

/-- The callee of a call. -/
def call : Level := 21

/-- The object of a member. -/
def member : Level := 22

/-- The level of a binary operator. -/
def ofOperator : String → Level
  | "??" => nullish
  | "||" => or
  | "&&" => and
  | "|" => 9
  | "^" => 10
  | "&" => 11
  | "==" | "!=" | "===" | "!==" => 12
  | "<" | ">" | "<=" | ">=" | "instanceof" | "in" => compare
  | "<<" | ">>" | ">>>" => shift
  | "+" | "-" => 15
  | "*" | "/" | "%" => 16
  | "**" => power
  | _ => lowest

end Level

/-- What may not stand in an expression outside parentheses. -/
structure Limits where
  /-- The operator `in` would end the head of a loop. -/
  forbidsIn : Bool := false
  /-- A call would end the callee of `new`. -/
  forbidsCall : Bool := false
deriving Inhabited

namespace Limits

/-- Only the limit on `in`. -/
def onlyIn (limits : Limits) : Limits := { forbidsIn := limits.forbidsIn }

/-- Only the limit on calls. -/
def onlyCall (limits : Limits) : Limits := { forbidsCall := limits.forbidsCall }

end Limits

/-- What a tree stands for. -/
inductive Mode where
  /-- A statement with its indentation and its end. -/
  | statement
  /-- A part of something. -/
  | part (level : Level) (limits : Limits)

/-- What does not change while a program is printed. -/
structure Settings where
  quote : QuoteStyle
  /-- The source may hold markup. -/
  hasMarkup : Bool

/-- The text so far and what has to be remembered of it. -/
structure Output where
  /-- The text, the last character first. -/
  reversed : List Char := []
  /-- The number of characters so far. -/
  size : Nat := 0
  indent : Nat := 0
  /-- The next indentation is a single blank. -/
  blankNext : Bool := false
  statementStart : Option Nat := none
  arrowStart : Option Nat := none
  exportStart : Option Nat := none
  /-- The last operator before an operand. -/
  operator : String := ""
  operatorEnd : Option Nat := none
  /-- The end of a number after which a dot would be taken for its point. -/
  numberEnd : Option Nat := none
  patternEnd : Option Nat := none
  /-- The comments that have not been printed. -/
  comments : List Comment := []

/-- Writes to an output. -/
abbrev Printer := ReaderT Settings (StateM Output)

/-- Prints trees. -/
abbrev Rules := Mode → Tree → Printer Unit

/-! ### Characters -/

/-- Writes characters. -/
def chars (cs : List Char) : Printer Unit :=
  modify fun out =>
    { out with reversed := cs.reverse ++ out.reversed, size := out.size + cs.length }

/-- Writes a text. -/
def text (s : String) : Printer Unit := chars s.toList

/-- Writes a blank. -/
def blank : Printer Unit := chars [' ']

/-- Ends a line. -/
def newline : Printer Unit := do
  chars ['\n']
  modify fun out => { out with blankNext := false }

/-- Ends a statement and its line. -/
def endStatement : Printer Unit := do
  text ";"
  newline

/-- Indents a line, or writes the blank that stands in place of the indentation. -/
def indentation : Printer Unit := do
  let out ← get
  if out.blankNext then
    blank
    modify fun out => { out with blankNext := false }
  else chars (List.replicate out.indent '\t')

/-- Indents what a printer writes one step further. -/
def indented (p : Printer Unit) : Printer Unit := do
  modify fun out => { out with indent := out.indent + 1 }
  p
  modify fun out => { out with indent := out.indent - 1 }

/-- The last character. -/
def last? : Printer (Option Char) := do
  return (← get).reversed.head?

/-- Writes a blank if a word would run into the one before it. -/
def separate : Printer Unit := do
  let out ← get
  match out.reversed.head? with
  | some c => if Identifier.isPart c || out.patternEnd == some out.size then blank else pure ()
  | none => pure ()

/-- Writes a word, apart from what stands before it. -/
def word (s : String) : Printer Unit := do
  separate
  text s

/-- Writes a punctuator between braces: the braces themselves cannot be told from text otherwise. -/
def openBrace : Printer Unit := chars ['\x7b']

/-- Writes a closing brace. -/
def closeBrace : Printer Unit := chars ['\x7d']

/-- Puts parentheses around what a printer writes, if asked. -/
def parenthesizedIf (condition : Bool) (p : Printer Unit) : Printer Unit := do
  if condition then
    text "("
    p
    text ")"
  else p

/-- Whether an operator would run into the one before it. -/
def runsTogether (previous next : String) (before : Option Char) : Bool :=
  match previous, next with
  | "+", "+" => true
  | "+", "++" => true
  | "-", "-" => true
  | "-", "--" => true
  | "!", "--" => before == some '<'
  | _, _ => false

/-- Writes an operator before its operand, apart from an operator that it would run into. -/
def operator (symbol : String) : Printer Unit := do
  let out ← get
  let before := (out.reversed.drop 1).head?
  if out.operatorEnd == some out.size && runsTogether out.operator symbol before then blank
  text symbol
  modify fun out => { out with operator := symbol, operatorEnd := some out.size }

/-! ### Lists and blocks -/

/-- Writes items with a separator between them. -/
def separated {α : Type} (between : Printer Unit) (item : α → Printer Unit) : List α → Printer Unit
  | [] => pure ()
  | [x] => item x
  | x :: xs => do
      item x
      between
      separated between item xs

/-- Writes items with commas and blanks between them. -/
def listed {α : Type} (item : α → Printer Unit) (items : List α) : Printer Unit :=
  separated (text ", ") item items

/-- Writes each item on a line of its own, with commas between them. -/
def lined {α : Type} (item : α → Printer Unit) (items : List α) : Printer Unit := do
  indented do
    newline
    indentation
    separated (do text ","; newline; indentation) item items
  newline
  indentation

/-- Writes braces around lines, or around nothing. -/
def braces (isEmpty : Bool) (lines : Printer Unit) : Printer Unit := do
  openBrace
  if !isEmpty then
    newline
    indented lines
    indentation
  closeBrace

/-- A part that binds anything. -/
def Mode.loose : Mode := .part Level.lowest {}

/-- A part between commas. -/
def Mode.item : Mode := .part Level.comma {}

end Concise.Print
