import Concise.Print.Markup

/-!
Printed statements. Each function prints a statement without its indentation; those that end with
another statement leave the end of the line to it.
-/

namespace Concise.Print

/-! ### Bodies of statements -/

/-- Prints a block. -/
def block (rules : Rules) (items : List Tree) : Printer Unit :=
  braces items.isEmpty (items.forM (rules .statement))

/-- Prints the body of a statement: a block or a statement on the same line, and the end of the
line. -/
def body (rules : Rules) (tree : Tree) : Printer Unit :=
  match tree with
  | .node .block _ items => do
      blank
      block rules items
      newline
  | .node .emptyStatement _ _ => endStatement
  | _ => do
      modify fun out => { out with blankNext := true }
      rules .statement tree

/-- Prints an expression in parentheses. -/
def headExpression (rules : Rules) (tree : Tree) : Printer Unit := do
  text "("
  rules .loose tree
  text ")"

/-! ### Branches -/

/-- Whether a statement ends in a conditional without `else`, which would take an `else` after
it. -/
def endsInOpenIf : Tree → Bool
  | .node .ifElse _ [_, _, alternate] => !alternate.isPresent || endsInOpenIf alternate
  | .node .forLoop _ [_, _, _, body] => endsInOpenIf body
  | .node .forIn _ [_, _, body] => endsInOpenIf body
  | .node (.forOf _) _ [_, _, body] => endsInOpenIf body
  | .node .whileLoop _ [_, body] => endsInOpenIf body
  | .node .withObject _ [_, body] => endsInOpenIf body
  | .node (.labeled _) _ [body] => endsInOpenIf body
  | _ => false

/-- Prints what follows `else`. -/
def alternative (rules : Rules) (tree : Tree) : Printer Unit :=
  match tree with
  | .node .ifElse _ _ => do
      blank
      rules .loose tree
  | _ => body rules tree

/-- Prints a conditional statement. -/
def ifElse (rules : Rules) (test consequent alternate : Tree) : Printer Unit := do
  text "if "
  headExpression rules test
  let joinElse : Printer Unit := do
    if alternate.isPresent then blank else newline
  match consequent with
  | .node .block _ items => do
      blank
      block rules items
      joinElse
  | _ =>
      if endsInOpenIf consequent then
        blank
        braces false (rules .statement consequent)
        joinElse
      else
        body rules consequent
        if alternate.isPresent then indentation
  if alternate.isPresent then
    text "else"
    alternative rules alternate

/-- Prints a case of a switch; a single statement stays on its line. -/
def switchCase (rules : Rules) (test : Tree) (items : List Tree) : Printer Unit := do
  indentation
  if test.isPresent then
    text "case "
    rules .loose test
  else text "default"
  text ":"
  match items with
  | [item] => body rules item
  | _ => do
      newline
      indented (items.forM (rules .statement))

/-- Prints a switch. -/
def switchOn (rules : Rules) (subject : Tree) (cases : List Tree) : Printer Unit := do
  text "switch "
  headExpression rules subject
  blank
  braces cases.isEmpty (cases.forM (rules .loose))
  newline

/-- Prints a try statement. -/
def tryBlock (rules : Rules) (block handler final : Tree) : Printer Unit := do
  text "try "
  rules .loose block
  if handler.isPresent then
    blank
    rules .loose handler
  if final.isPresent then
    text " finally "
    rules .loose final
  newline

/-- Prints the handler of a try statement. -/
def catchClause (rules : Rules) (parameter block : Tree) : Printer Unit := do
  text "catch"
  if parameter.isPresent then
    text " ("
    rules .loose parameter
    text ")"
  blank
  rules .loose block

/-! ### Loops -/

/-- Prints a clause of a loop, after a blank, if it is present. -/
def clause (rules : Rules) (tree : Tree) : Printer Unit := do
  if tree.isPresent then
    blank
    rules .loose tree

/-- Prints a loop with three clauses. -/
def forLoop (rules : Rules) (first test update body' : Tree) : Printer Unit := do
  text "for ("
  if first.isPresent then rules (.part Level.lowest { forbidsIn := true }) first
  text ";"
  clause rules test
  text ";"
  clause rules update
  text ")"
  body rules body'

/-- Whether a target has to be put in parentheses before `of`. -/
def isAmbiguousTarget (isAwait : Bool) : Tree → Bool
  | .reference _ name => name == "let" || (name == "async" && !isAwait)
  | _ => false

/-- Prints a loop over the members of a value. -/
def forIn (rules : Rules) (target object body' : Tree) : Printer Unit := do
  text "for ("
  rules .loose target
  text " in "
  rules .loose object
  text ")"
  body rules body'

/-- Prints a loop over the elements of a value. -/
def forOf (rules : Rules) (isAwait : Bool) (target iterable body' : Tree) : Printer Unit := do
  text (if isAwait then "for await (" else "for (")
  parenthesizedIf (isAmbiguousTarget isAwait target) (rules .loose target)
  text " of "
  rules .item iterable
  text ")"
  body rules body'

/-- Prints a loop with a test before each round. -/
def whileLoop (rules : Rules) (test body' : Tree) : Printer Unit := do
  text "while "
  headExpression rules test
  body rules body'

/-- Prints a loop with a test after each round. -/
def doWhile (rules : Rules) (body' test : Tree) : Printer Unit := do
  text "do"
  match body' with
  | .node .block _ items => do
      blank
      block rules items
      blank
  | .node .emptyStatement _ _ => rules .statement body'
  | _ => do
      newline
      indented (rules .statement body')
      indentation
  text "while "
  headExpression rules test
  endStatement

/-! ### Variables and jumps -/

/-- Prints a declaration of variables. -/
def declarations (rules : Rules) (limits : Limits) (keyword : VariableWord) (isDeclare : Bool)
    (items : List Tree) : Printer Unit := do
  if isDeclare then text "declare "
  text (keyword.text ++ " ")
  listed (rules (.part Level.comma limits)) items

/-- Prints a declarator. -/
def declarator (rules : Rules) (limits : Limits) (isDefinite : Bool) (pattern value : Tree) :
    Printer Unit := do
  match isDefinite, pattern with
  | true, .node (.typedPattern _) _ [inner, type] => do
      rules .item inner
      text "!"
      annotation rules type
  | _, _ => rules .item pattern
  initializer rules limits value

/-- Prints a jump with its label. -/
def jump (keyword : String) (label : Option String) : Printer Unit := do
  text keyword
  match label with
  | some name => text (" " ++ name)
  | none => pure ()
  endStatement

/-- Prints a statement that begins with a word and may have a value. -/
def withValue (rules : Rules) (keyword : String) (value : Tree) : Printer Unit := do
  text keyword
  clause rules value
  endStatement

end Concise.Print
