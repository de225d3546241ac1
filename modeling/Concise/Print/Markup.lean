import Concise.Print.Class

/-!
Printed JSX. The text between tags is kept as it is, and nothing is indented anew.
-/

namespace Concise.Print

/-- Prints a name with a namespace. -/
def namespacedName (space name : String) : Printer Unit := text (space ++ ":" ++ name)

/-- Prints a dotted tag. -/
def tagMember (rules : Rules) (object name : Tree) : Printer Unit := do
  rules .loose object
  text "."
  rules .loose name

/-- Prints an attribute. -/
def tagAttribute (rules : Rules) (name value : Tree) : Printer Unit := do
  rules .loose name
  if value.isPresent then
    text "="
    rules .loose value

/-- Prints a quoted attribute in double quotes, unless it holds one. -/
def attributeText (raw : String) : Printer Unit := do
  let quote := if raw.toList.contains '"' then "'" else "\""
  text (quote ++ raw ++ quote)

/-- Prints an expression in braces. -/
def container (rules : Rules) (tree : Tree) : Printer Unit := do
  openBrace
  rules .loose tree
  closeBrace

/-- Prints three dots and an expression in braces. -/
def spreadContainer (rules : Rules) (tree : Tree) : Printer Unit := do
  openBrace
  text "..."
  rules .item tree
  closeBrace

/-- Prints an element. -/
def element (rules : Rules) (isSelfClosing : Bool) (tag types attributes children closing : Tree) :
    Printer Unit := do
  text "<"
  rules .loose tag
  present rules types
  attributes.parts.forM fun item => do
    blank
    rules .loose item
  if isSelfClosing then text " />"
  else
    text ">"
    children.parts.forM (rules .loose)
    text "</"
    rules .loose closing
    text ">"

/-- Prints a fragment. -/
def fragment (rules : Rules) (children : List Tree) : Printer Unit := do
  text "<>"
  children.forM (rules .loose)
  text "</>"

end Concise.Print
