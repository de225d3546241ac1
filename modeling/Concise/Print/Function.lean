import Concise.Number.Literal
import Concise.Print.Type

/-!
Printed functions: bodies, functions, arrow functions, and the properties that hold them.
-/

namespace Concise.Print

/-! ### Bodies -/

/-- Whether a statement is a string, perhaps in parentheses: at the head of a body it would be read
as a directive. -/
def plainString? : Tree → Option Tree
  | .node .expressionStatement _ [tree] =>
      match tree.withoutParentheses with
      | .node (.string value hasLone) span parts => some (.node (.string value hasLone) span parts)
      | _ => none
  | _ => none

/-- Prints directives and statements. A string at the head that is no directive is put in
parentheses, at the start of its line. -/
def bodyLines (rules : Rules) : List Tree → Printer Unit
  | [] => pure ()
  | first :: rest => do
      match plainString? first with
      | some tree => do
          text "("
          rules .loose tree
          text ")"
          endStatement
      | none => rules .statement first
      rest.forM (rules .statement)

/-- Prints the body of a function. The comments before its closing brace stay in it. -/
def functionBody (rules : Rules) (span : Span) (items : List Tree) : Printer Unit := do
  let trailing ← takeComments (span.stop - 1)
  openBrace
  if items.isEmpty && trailing.all fun c => !c.newlineBefore && !c.newlineAfter then
    comments trailing
  else
    newline
    indented do
      bodyLines rules items
      comments trailing
    indentation
  closeBrace

/-! ### Functions -/

/-- Prints decorators, each with a blank after it. -/
def decorators (rules : Rules) (applied : Tree) : Printer Unit :=
  applied.parts.forM fun tree => do
    rules .loose tree
    blank

/-- Prints the accessibility of a parameter or a member. -/
def accessibility (modifiers : Modifiers) : Printer Unit :=
  match modifiers.accessibility with
  | some spelling => text (spelling ++ " ")
  | none => pure ()

/-- Prints a parameter with its decorators and modifiers. -/
def parameter (rules : Rules) (modifiers : Modifiers) (applied pattern : Tree) : Printer Unit := do
  decorators rules applied
  accessibility modifiers
  if modifiers.isOverride then text "override "
  if modifiers.isReadonly then text "readonly "
  rules .item pattern

/-- Whether the output stands at the start of a statement or of a default export. -/
def atStart : Printer Bool := do
  let out ← get
  return out.statementStart == some out.size || out.exportStart == some out.size

/-- Prints a function. -/
def function (rules : Rules) (head : FunctionHead) (generics this list returned body : Tree) :
    Printer Unit := do
  let wraps := head.role == .expression && ((← atStart) || head.wasParenthesized)
  parenthesizedIf wraps do
    separate
    if head.isDeclare then text "declare "
    if head.isAsync then text "async "
    text "function"
    if head.isGenerator then text "* "
    match head.name with
    | some name => word name.text
    | none => pure ()
    signature rules generics this list returned
    if body.isPresent then
      blank
      rules .loose body
    else text ";"

/-- Prints an arrow function. -/
def arrow (rules : Rules) (level : Level) (limits : Limits)
    (isAsync isExpression wasParenthesized : Bool) (generics list returned body : Tree) : Printer Unit :=
  parenthesizedIf (Level.assign ≤ level || wasParenthesized) do
    if isAsync then word "async "
    signature rules generics .absent list returned
    text " => "
    if isExpression then
      modify fun out => { out with arrowStart := some out.size }
      rules (.part Level.comma limits) body
    else rules .loose body

/-- Prints a method after its modifiers: its `this` parameter is left out. -/
def methodTail (rules : Rules) (generics this list returned body : Tree) : Printer Unit := do
  signature rules generics this list returned
  if body.isPresent then
    blank
    rules .loose body

/-! ### Properties -/

/-- Whether a property is printed as a name alone: the key is a bare name and the value the same
identifier. The key that sets the prototype is left out only if the source did. -/
def printsShort (form : PropertyForm) : Tree → Tree → Bool
  | .node (.staticName name) _ _, value =>
      if name == "__proto__" then form.isShorthand
      else
        match value.withoutParentheses with
        | .reference _ other => name == other
        | _ => false
  | _, _ => false

/-- Whether a key is a number too large to be finite, which can only be written as a name. -/
def isInfinite : Tree → Bool
  | .node (.number raw) _ _ => (Numeral.value? raw).isNone
  | _ => false

/-- Prints a property that is not a method or an accessor. -/
def plainProperty (rules : Rules) (form : PropertyForm) (name value : Tree) : Printer Unit := do
  if !printsShort form name value then
    key rules (form.isComputed || isInfinite name) name
    text ": "
  rules .item value

/-- Prints a property of an object literal. -/
def property (rules : Rules) (form : PropertyForm) (name value : Tree) : Printer Unit := do
  match value with
  | .function _ head generics _ list returned body => do
      match form.accessor with
      | .get => text "get "
      | .set => text "set "
      | .init => pure ()
      if form.isMethod || form.accessor != .init then
        if head.isAsync then text "async "
        if head.isGenerator then text "*"
        key rules form.isComputed name
        methodTail rules generics .absent list returned body
      else plainProperty rules form name value
  | _ => plainProperty rules form name value

end Concise.Print
