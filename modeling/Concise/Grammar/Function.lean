import Concise.Grammar.Pattern

/-!
Functions: arguments of calls, decorators, parameters, bodies, and the functions themselves.

A body begins with its directives: statements that are a string and nothing else.
-/

namespace Concise.Grammar

open Concise.Parser

/-- Reads an argument or an array element: an expression or a spread. -/
def spreadable (rules : Rules) : Parser Tree := do
  let start ← position
  if ← acceptMark "..." then
    let argument ← rules .assignment
    node (.spread (← isMark ",")) start [argument]
  else rules .assignment

/-- Reads arguments in parentheses. -/
def arguments (rules : Rules) : Parser Tree := do
  let start ← position
  mark "("
  let items ← within (fun c => { c with allowsIn := true, inConsequent := false })
    (delimited (.mark ")") (spreadable rules))
  node .group start items

/-- Reads an expression, perhaps a sequence. -/
def expression (rules : Rules) : Parser Tree := do
  let start ← position
  match ← separatedBy "," (rules .assignment) with
  | [single] => return single
  | several => node .sequence start several

/-- Reads an expression where `in` is allowed. -/
def fullExpression (rules : Rules) : Parser Tree :=
  within (fun c => { c with allowsIn := true, inConsequent := false }) (expression rules)

/-! ### Decorators -/

/-- Reads what a decorator applies: names with dots, calls, or an expression in parentheses. -/
def decoratorExpression (rules : Rules) : Parser Tree := do
  let start ← position
  let head ←
    if ← acceptMark "(" then do
      let inner ← fullExpression rules
      mark ")"
      node .parenthesized start [inner]
    else reference
  loop (fun tree => do
    if ← acceptMark "." then
      let token ← peek
      match token.lexeme with
      | .privateWord text =>
          skip token
          let property := Tree.node (.privateName text) ⟨token.start, token.stop⟩ []
          return .inl (← node (.member false) start [tree, property])
      | _ =>
          let property ← plainWord
          return .inl (← node (.member false) start [tree, property])
    else if ← isMark "(" then
      let items ← arguments rules
      return .inl (← node (.call false) start [tree, .absent, items])
    else if (← isTypeScript) && (← isMark "<") then
      let types ← typeArguments rules
      let items ← arguments rules
      return .inl (← node (.call false) start [tree, types, items])
    else return .inr tree) head

/-- Reads the decorators that stand here. -/
def decorators (rules : Rules) : Parser Tree := do
  let start ← position
  let items ← loop (fun items => do
    let start ← position
    if ← acceptMark "@" then
      let applied ← decoratorExpression rules
      return .inl ((← node .decorator start [applied]) :: items)
    else return .inr items.reverse) []
  if items.isEmpty then return .absent else node .group start items

/-! ### Parameters -/

/-- Whether the next word modifies a parameter: a pattern follows it. -/
def modifiesParameter (text : String) : Parser Bool := do
  if ← isWord text then
    holds do
      let _ ← next
      match (← peek).lexeme with
      | .word _ _ => return true
      | .openBrace => return true
      | .mark "[" => return true
      | _ => return false
  else return false

/-- Reads the modifiers of a constructor's parameter. -/
def parameterModifiers : Parser Modifiers := do
  if !(← isTypeScript) then return {}
  loop (fun (modifiers : Modifiers) => do
    if ← modifiesParameter "public" then
      word "public"
      return .inl { modifiers with accessibility := some "public" }
    else if ← modifiesParameter "private" then
      word "private"
      return .inl { modifiers with accessibility := some "private" }
    else if ← modifiesParameter "protected" then
      word "protected"
      return .inl { modifiers with accessibility := some "protected" }
    else if ← modifiesParameter "override" then
      word "override"
      return .inl { modifiers with isOverride := true }
    else if ← modifiesParameter "readonly" then
      word "readonly"
      return .inl { modifiers with isReadonly := true }
    else return .inr modifiers) {}

/-- Reads a parameter. -/
def parameter (rules : Rules) : Parser Tree := do
  let start ← position
  let applied ← decorators rules
  if ← acceptMark "..." then rest start (typedPattern rules)
  else
    let modifiers ← parameterModifiers
    let pattern ← withDefault rules (typedPattern rules)
    node (.parameter modifiers) start [applied, pattern]

/-- Reads parameters in parentheses: the `this` parameter and the others. -/
def parameters (rules : Rules) : Parser (Tree × Tree) := do
  let start ← position
  mark "("
  let this ← thisParameter? rules
  let items ← within (fun c => { c with allowsIn := true, inConsequent := false })
    (delimited (.mark ")") (parameter rules))
  require (restComesLast items)
  return (this, ← node .parameters start items)

/-! ### Bodies -/

/-- Reads directives and statements up to a closing token. -/
def bodyItems (rules : Rules) (close : Lexeme) : Parser (List Tree) :=
  loop (fun (items, inPrologue) => do
    if ← accept close then
      return .inr items.reverse
    let token ← peek
    let item ← rules .statement
    match inPrologue, token.lexeme, item with
    | true, .string _ raw _, .node .expressionStatement span [.node (.string _ _) _ []] =>
        return .inl (.node (.directive raw) span [] :: items, true)
    | _, _, _ => return .inl (item :: items, false)) ([], true)

/-- Reads a body in braces. -/
def functionBody (rules : Rules) : Parser Tree := do
  let start ← position
  expect .openBrace
  let items ← bodyItems rules .closeBrace
  node .functionBody start items

/-- The context inside a function. -/
def Context.forFunction (isAsync isGenerator : Bool) (c : Context) : Context :=
  { c with
    inAsync := isAsync, inGenerator := isGenerator, inFunction := true, allowsIn := true
    inConsequent := false, noConditionalType := false }

/-- Reads a function from its type parameters on. Only TypeScript lets the body be left out. -/
def functionTail (rules : Rules) (start : Nat) (head : FunctionHead) : Parser Tree := do
  within (Context.forFunction head.isAsync head.isGenerator) do
    let typeParameters ← typeParameters? rules
    let (this, items) ← parameters rules
    let returned ← returnType? rules
    let body ←
      if (← isTypeScript) && !(← isAt .openBrace) then do
        semicolon
        pure Tree.absent
      else functionBody rules
    return .function (← spanFrom start) head typeParameters this items returned body

/-- Reads a function that begins with `function`, perhaps after `async`. -/
def functionFrom (rules : Rules) (role : FunctionRole) (isDeclare : Bool) : Parser Tree := do
  let start ← position
  let isAsync ← acceptWord "async"
  word "function"
  let isGenerator ← acceptMark "*"
  let name ←
    if ← isMark "(" then pure none
    else if (← isTypeScript) && (← isMark "<") then pure none
    else
      match role with
      | .declaration => some <$> name
      | .expression =>
          some <$> within (fun c => { c with inAsync := isAsync, inGenerator := isGenerator }) name
  functionTail rules start { role, name, isAsync, isGenerator, isDeclare }

/-- Reads a method from its parameters on. -/
def method (rules : Rules) (isAsync isGenerator : Bool) : Parser Tree := do
  functionTail rules (← position) { isAsync, isGenerator }

/-- Whether a function has the parameters that its kind of accessor allows. -/
def accessorFits (accessor : AccessorKind) : Tree → Bool
  | .function _ _ _ _ (.node .parameters _ items) _ _ =>
      match accessor, items with
      | .init, _ => true
      | .get, [] => true
      | .get, _ => false
      | .set, [item] => !item.isRest
      | .set, _ => false
  | _ => false

end Concise.Grammar
