import Concise.Grammar.Expression

/-!
Statements other than modules and type-level declarations.

* `variableStatement` and `forStatement` share the reading of declarators. How many of them a loop
  over the members or elements of a value declares, and whether with initialisers, is not checked.
* `substatement` reads a statement where a single one is expected, as the body of a loop.
* `expressionOrLabel` is the last resort: an expression, or a label and its statement.
-/

namespace Concise.Grammar

open Concise.Parser

/-- Whether a statement may stand where a single one is expected. A class, a variable of a block and
a function that is asynchronous or a generator may not, unless they exist elsewhere. -/
def standsAlone : Tree → Bool
  | .node (.classDefinition _ isDeclare _) _ _ => isDeclare
  | .node (.declarations word isDeclare) _ _ => isDeclare || word == .varWord
  | .function _ head _ _ _ _ _ => head.isDeclare || !(head.isAsync || head.isGenerator)
  | _ => true

/-- Reads a statement where a single one is expected. -/
def substatement (rules : Rules) : Parser Tree := do
  let tree ← rules .statement
  require (standsAlone tree)
  return tree

/-- Reads an expression in parentheses, as the head of a statement. -/
def headExpression (rules : Rules) : Parser Tree := do
  mark "("
  let tree ← fullExpression rules
  mark ")"
  return tree

/-- Reads a block. -/
def block (rules : Rules) : Parser Tree := do
  let start ← position
  expect .openBrace
  let items ← itemsUntil .closeBrace (rules .statement)
  node .block start items

/-! ### Variables -/

/-- Whether a pattern is more than a name. -/
def isDestructuring : Tree → Bool
  | .node .objectPattern _ _ => true
  | .node .arrayPattern _ _ => true
  | .node (.typedPattern _) _ (.node .objectPattern _ _ :: _) => true
  | .node (.typedPattern _) _ (.node .arrayPattern _ _ :: _) => true
  | _ => false

/-- Reads a declarator: a pattern, perhaps its type, and perhaps an initialiser. -/
def declarator (rules : Rules) : Parser Tree := do
  let start ← position
  let pattern ← rules .pattern
  let token ← peek
  let isDefinite := (← isTypeScript) && token.lexeme == .mark "!" && !token.newlineBefore
  if isDefinite then skip token
  let type ← annotation? rules
  let typed ←
    if type.isPresent then node (.typedPattern false) start [pattern, type] else pure pattern
  let value ← optional (← acceptMark "=") (rules .assignment)
  node (.declarator isDefinite) start [typed, value]

/-- Whether a declarator may stand in a statement: constants and destructuring need a value. -/
def isInitialized (word : VariableWord) : Tree → Bool
  | .node _ _ [pattern, value] =>
      value.isPresent ||
        !(isDestructuring pattern || word == .constWord || word.disposes)
  | _ => false

/-- Whether a token may begin a pattern after a word that declares variables. -/
def beginsPattern (token : Token) : Bool :=
  match token.lexeme with
  | .word text _ => text != "in" && text != "instanceof"
  | .openBrace => true
  | .mark "[" => true
  | _ => false

/-- The word that declares variables here, if there is one. -/
def variableWord? : Parser (Option VariableWord) := do
  match (← peek).lexeme with
  | .word "var" false => return some .varWord
  | .word "const" false => return some .constWord
  | .word "let" false =>
      if ← holds (do word "let"; return beginsPattern (← peek)) then return some .letWord
      else return none
  | .word "using" false => do
      let isUsing ← holds do
        word "using"
        let token ← peek
        return !token.newlineBefore && (← isName) && token.lexeme != .word "of" false
      return if isUsing then some .usingWord else none
  | .word "await" false => do
      let isUsing ← holds do
        word "await"
        word "using"
        return !(← peek).newlineBefore && (← isName)
      return if isUsing then some .awaitUsingWord else none
  | _ => return none

/-- Takes the word that declares variables. -/
def takeVariableWord : VariableWord → Parser Unit
  | .awaitUsingWord => do
      word "await"
      word "using"
  | other => word other.text

/-- Reads the declaration of variables without what ends it. -/
def variableList (rules : Rules) (word : VariableWord) (isDeclare : Bool) : Parser Tree := do
  let start ← position
  takeVariableWord word
  let items ← separatedBy "," (declarator rules)
  node (.declarations word isDeclare) start items

/-- Reads a statement that declares variables. -/
def variableStatement (rules : Rules) (start : Nat) (word : VariableWord) (isDeclare : Bool) :
    Parser Tree := do
  match ← variableList rules word isDeclare with
  | .node kind _ items =>
      let context ← read
      require (isDeclare || context.isAmbient || items.all (isInitialized word))
      semicolon
      node kind start items
  | _ => failure

/-! ### Loops -/

/-- Reads the body of a loop over a value, after the value. -/
def loopBody (rules : Rules) : Parser Tree := do
  mark ")"
  substatement rules

/-- Reads a loop with three clauses after the first. -/
def threeClauses (rules : Rules) (start : Nat) (first : Tree) : Parser Tree := do
  mark ";"
  let test ← if ← isMark ";" then pure Tree.absent else fullExpression rules
  mark ";"
  let update ← if ← isMark ")" then pure Tree.absent else fullExpression rules
  let body ← loopBody rules
  node .forLoop start [first, test, update, body]

/-- Reads a loop over the members or elements of a value, after its target. -/
def loopOver (rules : Rules) (start : Nat) (target : Tree) (isAwait : Bool) : Parser Tree := do
  if ← acceptWord "of" then
    let iterable ← within (fun c => { c with allowsIn := true }) (rules .assignment)
    let body ← loopBody rules
    node (.forOf isAwait) start [target, iterable, body]
  else
    word "in"
    require (!isAwait)
    let object ← fullExpression rules
    let body ← loopBody rules
    node .forIn start [target, object, body]

/-- Whether a loop over a value goes on here. -/
def isLoopOver : Parser Bool := do
  return (← isWord "of") || (← isWord "in")

/-- Reads a loop that begins with `for`. -/
def forStatement (rules : Rules) : Parser Tree := do
  let start ← position
  word "for"
  let isAwait ← acceptWord "await"
  mark "("
  if ← isMark ";" then
    require (!isAwait)
    threeClauses rules start .absent
  else
    match ← variableWord? with
    | some word =>
        let first ← within (fun c => { c with allowsIn := false }) (variableList rules word false)
        if ← isLoopOver then
          require (!word.disposes || (← isWord "of"))
          loopOver rules start first isAwait
        else
          require (!isAwait && first.parts.all fun item =>
            isInitialized (if word == .constWord then .letWord else word) item)
          threeClauses rules start first
    | none =>
        let isAsyncOf ← holds do
          word "async"
          isWord "of"
        let first ← within (fun c => { c with allowsIn := false, inConsequent := false })
          (expression rules)
        if ← isLoopOver then
          require (isAwait || !isAsyncOf || !(← isWord "of"))
          match first.toTarget? with
          | some target => loopOver rules start target isAwait
          | none => failure
        else
          require (!isAwait)
          threeClauses rules start first

/-- Reads a loop that begins with `while`. -/
def whileStatement (rules : Rules) : Parser Tree := do
  let start ← position
  word "while"
  let test ← headExpression rules
  let body ← substatement rules
  node .whileLoop start [test, body]

/-- Reads a loop that begins with `do`; a semicolon after it may be left out. -/
def doStatement (rules : Rules) : Parser Tree := do
  let start ← position
  word "do"
  let body ← substatement rules
  word "while"
  let test ← headExpression rules
  let _ ← acceptMark ";"
  node .doWhile start [body, test]

/-! ### Branches and jumps -/

/-- Reads a conditional statement. -/
def ifStatement (rules : Rules) : Parser Tree := do
  let start ← position
  word "if"
  let test ← headExpression rules
  let consequent ← substatement rules
  let alternate ← optional (← acceptWord "else") (substatement rules)
  node .ifElse start [test, consequent, alternate]

/-- Reads a case of a switch. -/
def switchCase (rules : Rules) : Parser Tree := do
  let start ← position
  let test ←
    if ← acceptWord "default" then pure Tree.absent
    else do
      word "case"
      fullExpression rules
  mark ":"
  let items ← loop (fun items => do
    if (← isWord "case") || (← isWord "default") || (← isAt .closeBrace) then
      return .inr items.reverse
    return .inl ((← rules .statement) :: items)) []
  node .switchCase start (test :: items)

/-- Reads a switch. -/
def switchStatement (rules : Rules) : Parser Tree := do
  let start ← position
  word "switch"
  let subject ← headExpression rules
  expect .openBrace
  let cases ← itemsUntil .closeBrace (switchCase rules)
  require ((cases.filter fun c => !(c.parts.headD .absent).isPresent).length ≤ 1)
  node .switchOn start (subject :: cases)

/-- Reads a jump with an optional label. -/
def jumpStatement (keyword : String) (kind : Option String → Kind) : Parser Tree := do
  let start ← position
  word keyword
  let token ← peek
  let label ←
    if token.newlineBefore || !(← isName) then pure none
    else do
      pure (some (← name).text)
  semicolon
  node (kind label) start []

/-- Reads a return statement. -/
def returnStatement (rules : Rules) : Parser Tree := do
  let start ← position
  require (← read).inFunction
  word "return"
  let token ← peek
  let isBare :=
    token.newlineBefore || token.lexeme == .mark ";" || token.lexeme == .closeBrace ||
      token.lexeme == .finish
  let value ← optional (!isBare) (fullExpression rules)
  semicolon
  node .returnValue start [value]

/-- Reads a throw statement; its value begins on the same line. -/
def throwStatement (rules : Rules) : Parser Tree := do
  let start ← position
  word "throw"
  require (!(← peek).newlineBefore)
  let value ← fullExpression rules
  semicolon
  node .throwValue start [value]

/-- Reads the handler of a try statement. -/
def catchClause (rules : Rules) : Parser Tree := do
  let start ← position
  word "catch"
  let parameter ←
    if ← acceptMark "(" then do
      let start ← position
      let pattern ← rules .pattern
      let type ← annotation? rules
      let typed ←
        if type.isPresent then node (.typedPattern false) start [pattern, type] else pure pattern
      mark ")"
      pure typed
    else pure Tree.absent
  let body ← block rules
  node .catchClause start [parameter, body]

/-- Reads a try statement. -/
def tryStatement (rules : Rules) : Parser Tree := do
  let start ← position
  word "try"
  let body ← block rules
  let handler ← optional (← isWord "catch") (catchClause rules)
  let final ← optional (← acceptWord "finally") (block rules)
  require (handler.isPresent || final.isPresent)
  node .tryBlock start [body, handler, final]

/-- Reads a with statement. -/
def withStatement (rules : Rules) : Parser Tree := do
  let start ← position
  word "with"
  let object ← headExpression rules
  let body ← substatement rules
  node .withObject start [object, body]

/-- Reads a debugger statement. -/
def debuggerStatement : Parser Tree := do
  let start ← position
  word "debugger"
  semicolon
  node .debuggerStatement start []

/-- Reads a statement that is an expression, or a label and its statement. -/
def expressionOrLabel (rules : Rules) : Parser Tree := do
  let start ← position
  if ← holds (do let _ ← name; isMark ":") then
    let label ← name
    mark ":"
    let body ← substatement rules
    node (.labeled label.text) start [body]
  else
    let tree ← fullExpression rules
    semicolon
    node .expressionStatement start [tree]

/-- Reads a function that is declared under a name. -/
def functionDeclaration (rules : Rules) (start : Nat) (isDeclare : Bool) : Parser Tree := do
  match ← functionFrom rules .declaration isDeclare with
  | .function span head typeParameters this parameters returned body =>
      require head.name.isSome
      return .function ⟨start, span.stop⟩ head typeParameters this parameters returned body
  | _ => failure

end Concise.Grammar
