import Concise.Print.Expression

/-!
Printed classes and decorators.
-/

namespace Concise.Print

/-! ### Decorators -/

/-- Whether what a decorator applies can be written without parentheses: names with dots and calls
of them. -/
def isPlainDecorator : Tree → Bool
  | .reference _ _ => true
  | .node (.member false) _ [object, _] => isPlainDecorator object
  | .node (.call false) _ [callee, _, _] => isPlainDecorator callee
  | .node .parenthesized _ [inner] => isPlainDecorator inner
  | _ => false

/-- Prints a decorator. -/
def decorator (rules : Rules) (tree : Tree) : Printer Unit := do
  text "@"
  parenthesizedIf (!isPlainDecorator tree) (rules .loose tree)

/-! ### Members -/

/-- Prints a method or an accessor; `override` is left out. -/
def methodDefinition (rules : Rules) (modifiers : Modifiers) (accessor : AccessorKind)
    (isComputed isOptional : Bool) (applied name : Tree) : Tree → Printer Unit
  | .function _ head generics this list returned body => do
      decorators rules applied
      accessibility modifiers
      if modifiers.isAbstract then text "abstract "
      if modifiers.isStatic then text "static "
      match accessor with
      | .get => text "get "
      | .set => text "set "
      | .init => pure ()
      if head.isAsync then text "async "
      if head.isGenerator then text "*"
      key rules isComputed name
      if isOptional then text "?"
      methodTail rules generics this list returned body
      if !body.isPresent then text ";"
  | _ => pure ()

/-- Prints a field. -/
def fieldDefinition (rules : Rules) (modifiers : Modifiers)
    (isComputed isOptional isDefinite : Bool) (applied name type value : Tree) : Printer Unit := do
  decorators rules applied
  if modifiers.isDeclare then text "declare "
  accessibility modifiers
  if modifiers.isAbstract then text "abstract "
  if modifiers.isStatic then text "static "
  if modifiers.isOverride then text "override "
  if modifiers.isReadonly then text "readonly "
  if modifiers.isAccessor then text "accessor "
  key rules isComputed name
  if isOptional then text "?"
  if isDefinite then text "!"
  annotation rules type
  initializer rules {} value

/-- Prints a static block. -/
def staticBlock (rules : Rules) (items : List Tree) : Printer Unit := do
  text "static "
  braces items.isEmpty (items.forM (rules .statement))

/-- Prints a member of a class on a line of its own. -/
def classMember (rules : Rules) (member : Tree) : Printer Unit := do
  leadingComments member.span.start
  indentation
  rules .loose member
  match member with
  | .node (.fieldDefinition _ _ _ _) _ _ => endStatement
  | .node (.indexSignature _ _) _ _ => endStatement
  | _ => newline

/-! ### Classes -/

/-- Prints a class. -/
def classDefinition (rules : Rules) (isExpression isDeclare isAbstract : Bool)
    (applied name generics parent types interfaces members : Tree) : Printer Unit := do
  let wraps := isExpression && (← atStart)
  parenthesizedIf wraps do
    decorators rules applied
    separate
    if isDeclare then text "declare "
    if isAbstract then text "abstract "
    text "class"
    if name.isPresent then
      blank
      rules .loose name
    present rules generics
    if parent.isPresent then
      text " extends "
      rules (.part Level.update {}) parent
      present rules types
    if interfaces.isPresent then
      text " implements "
      listed (rules .loose) interfaces.parts
    blank
    braces members.parts.isEmpty (members.parts.forM (classMember rules))

end Concise.Print
