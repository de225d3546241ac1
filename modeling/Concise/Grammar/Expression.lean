import Concise.Grammar.Class
import Concise.Grammar.Markup

/-!
Expressions.

* `assignment` reads an assignment expression: what may stand between commas. Arrow functions are
  found here. What stands in parentheses is read as expressions once; if an arrow follows, they are
  converted to parameters. Only parameters with types have to be read anew.
* `binary` reads chains of binary operators by their levels.
* `unary` reads prefix operators and what they apply to.
* `construct` reads what begins with `new`.
-/

namespace Concise.Grammar

open Concise.Parser

/-! ### Operators -/

/-- The level of a binary operator: what binds tighter has a higher level. -/
def operatorLevel : String → Option Nat
  | "??" => some 1
  | "||" => some 2
  | "&&" => some 3
  | "|" => some 4
  | "^" => some 5
  | "&" => some 6
  | "==" | "!=" | "===" | "!==" => some 7
  | "<" | ">" | "<=" | ">=" | "instanceof" | "in" => some 8
  | "<<" | ">>" | ">>>" => some 9
  | "+" | "-" => some 10
  | "*" | "/" | "%" => some 11
  | "**" => some 12
  | _ => none

/-- The operators that assign. -/
def assignmentOperators : List String :=
  ["=", "+=", "-=", "*=", "/=", "%=", "**=", "<<=", ">>=", ">>>=", "&=", "|=", "^=", "&&=", "||=",
   "??="]

/-- What lengthens a mark `<` or `>` to an operator. -/
def operatorTail : Char → List Char → List Char
  | '<', '<' :: '=' :: _ => ['<', '=']
  | '<', '<' :: _ => ['<']
  | '<', '=' :: _ => ['=']
  | '>', '>' :: '>' :: '=' :: _ => ['>', '>', '=']
  | '>', '>' :: '>' :: _ => ['>', '>']
  | '>', '>' :: '=' :: _ => ['>', '=']
  | '>', '>' :: _ => ['>']
  | '>', '=' :: _ => ['=']
  | _, _ => []

/-- The token of the whole operator whose first mark is given. -/
def wholeOperator (token : Token) : Token :=
  let lengthen (first : Char) : Token :=
    let tail := operatorTail first token.after
    { token with
      lexeme := .mark (String.ofList (first :: tail))
      stop := token.stop + tail.length
      after := token.after.drop tail.length }
  match token.lexeme with
  | .mark "<" => lengthen '<'
  | .mark ">" => lengthen '>'
  | _ => token

/-- The binary operator that a token spells, with its level. -/
def binaryOperator (allowsIn : Bool) (token : Token) : Option (String × Nat) :=
  match token.lexeme with
  | .mark symbol => (operatorLevel symbol).map fun level => (symbol, level)
  | .word "instanceof" false => some ("instanceof", 8)
  | .word "in" false => if allowsIn then some ("in", 8) else none
  | _ => none

/-- Whether an operator joins truth values. -/
def isLogical (operator : String) : Bool :=
  operator == "??" || operator == "||" || operator == "&&"

/-- Whether a tree is a logical expression, outside parentheses, with an operator that may not be
mixed with the given one. -/
def clashesWith (operator : String) : Tree → Bool
  | .node (.logical other) _ _ =>
      (operator == "??" && other != "??") || (operator != "??" && other == "??")
  | _ => false

/-- Whether a tree is a unary expression, or the wait for a value, outside parentheses: such an
operand may not be the base of a power. -/
def isUnary : Tree → Bool
  | .node (.unary _) _ _ => true
  | .node .awaitValue _ _ => true
  | _ => false

/-- Joins two operands. -/
def joinOperands (operator : String) (start : Nat) (left right : Tree) : Parser Tree := do
  if isLogical operator then
    require (!clashesWith operator left && !clashesWith operator right)
    node (.logical operator) start [left, right]
  else
    require (!(operator == "**" && isUnary left))
    node (.binary operator) start [left, right]

/-! ### Primary expressions -/

/-- A function or arrow function that stands directly in parentheses remembers them. -/
def rememberParentheses : Tree → Tree
  | .function span head typeParameters this parameters returned body =>
      .function span { head with wasParenthesized := true } typeParameters this parameters returned
        body
  | .node (.arrow isAsync isExpression _) span parts =>
      .node (.arrow isAsync isExpression true) span parts
  | tree => tree

/-- Reads a template, after its opening backtick. -/
def templateTail (rules : Rules) (start : Nat) (isTagged : Bool) : Parser Tree := do
  let (raws, items) ← templatePieces (fullExpression rules) isTagged
  node (.template raws) start items

/-- Reads a template. -/
def template (rules : Rules) (isTagged : Bool) : Parser Tree := do
  let start ← position
  mark "`"
  templateTail rules start isTagged

/-- What stands in parentheses, before it is known whether it is an expression or parameters. -/
structure Cover where
  items : List Tree
  /-- The items may also be an expression: there are some, and no spread or last comma. -/
  isExpression : Bool
  start : Nat
  inner : Nat
  span : Span

/-- Reads expressions and spreads in parentheses. -/
def cover (rules : Rules) : Parser Cover := do
  let start ← position
  mark "("
  let inner ← position
  let (items, isExpression) ←
    within (fun c => { c with allowsIn := true, inConsequent := false })
      (loop (fun (items, isExpression) => do
        if ← acceptMark ")" then
          return .inr (items.reverse, false)
        let isSpread ← isMark "..."
        let item ← spreadable rules
        if ← acceptMark "," then
          return .inl (item :: items, isExpression && !isSpread)
        mark ")"
        return .inr ((item :: items).reverse, isExpression && !isSpread)) ([], true))
  return { items, isExpression, start, inner, span := ← spanFrom start }

/-- The end of the last of some trees. -/
def lastStop (trees : List Tree) : Nat :=
  match trees.getLast? with
  | some tree => tree.span.stop
  | none => 0

/-- The expression in parentheses that a cover spells. -/
def Cover.expression (c : Cover) : Parser Tree := do
  require c.isExpression
  match c.items with
  | [] => failure
  | [single] => return .node .parenthesized c.span [rememberParentheses single]
  | several =>
      return .node .parenthesized c.span [.node .sequence ⟨c.inner, lastStop several⟩ several]

/-- Reads an expression in parentheses. -/
def parenthesized (rules : Rules) : Parser Tree := do
  (← cover rules).expression

/-- Reads a regular expression at the given token, which is or begins with a slash. -/
def regularExpression (token : Token) : Parser Tree := do
  match Quoted.readRegularExpression (token.here.drop 1) with
  | some (pattern, flags, after) =>
      let stop := token.start + Cursor.consumed token.here after
      skip { token with stop, after }
      return .node (.regularExpression pattern flags) ⟨token.start, stop⟩ []
  | none => failure

/-- Whether the next two words are `async function` on one line. -/
def isAsyncFunction : Parser Bool := do
  if ← isWord "async" then
    holds do
      word "async"
      let token ← peek
      return token.lexeme == .word "function" false && !token.newlineBefore
  else return false

/-- Reads the source and the options of a dynamic import, in parentheses. -/
def importTail (rules : Rules) (start : Nat) (phase : Option String) : Parser Tree := do
  mark "("
  within (fun c => { c with allowsIn := true, inConsequent := false }) do
    let source ← rules .assignment
    let options ←
      if ← acceptMark "," then
        if ← isMark ")" then pure Tree.absent
        else do
          let options ← rules .assignment
          let _ ← acceptMark ","
          pure options
      else pure Tree.absent
    mark ")"
    node (.importCall phase) start [source, options]

/-- Reads `import.meta` or a dynamic import, perhaps with a phase. -/
def importExpression (rules : Rules) : Parser Tree := do
  let start ← position
  word "import"
  if ← acceptMark "." then
    if ← acceptWord "source" then importTail rules start (some "source")
    else if ← acceptWord "defer" then importTail rules start (some "defer")
    else
      word "meta"
      node (.metaProperty "import" "meta") start []
  else importTail rules start none

/-- Reads the superclass of a class. -/
def superclass (rules : Rules) : Parser Tree := rules .unary

/-- Reads a class expression, perhaps with decorators. -/
def classExpression (rules : Rules) : Parser Tree := do
  let start ← position
  let applied ← decorators rules
  classFrom rules (superclass rules) start applied true false false

/-- Reads an expression without operators. -/
def primary (rules : Rules) : Parser Tree := do
  let token ← peek
  let span : Span := ⟨token.start, token.stop⟩
  let leaf (kind : Kind) : Parser Tree := do
    skip token
    return .node kind span []
  match token.lexeme with
  | .number raw => leaf (.number raw)
  | .bigInteger raw => leaf (.bigInteger raw)
  | .string value _ hasLone => leaf (.string value hasLone)
  | .mark "(" => parenthesized rules
  | .mark "[" => arrayLiteral rules
  | .openBrace => objectLiteral rules
  | .mark "`" => template rules false
  | .mark "/" | .mark "/=" => regularExpression token
  | .mark "<" => do
      require (← read).dialect.hasMarkup
      rules .element
  | .mark "@" => classExpression rules
  | .word "this" false => leaf .thisValue
  | .word "null" false => leaf .nullValue
  | .word "true" false => leaf (.boolean true)
  | .word "false" false => leaf (.boolean false)
  | .word "function" false => functionFrom rules .expression false
  | .word "class" false => classExpression rules
  | .word "new" false => rules .construct
  | .word "import" false => importExpression rules
  | .word "super" false => do
      skip token
      require ((← isMark ".") || (← isMark "[") || (← isMark "("))
      return .node .superValue span []
  | .word _ _ => do
      if ← isAsyncFunction then functionFrom rules .expression false else reference
  | _ => failure

/-! ### Members and calls -/

/-- Reads the name after a dot. -/
def memberName : Parser Tree := do
  let token ← peek
  match token.lexeme with
  | .privateWord text =>
      skip token
      return .node (.privateName text) ⟨token.start, token.stop⟩ []
  | _ => plainWord

/-- Reads an expression in brackets, after the opening bracket. -/
def bracketed (rules : Rules) : Parser Tree := do
  let inner ← fullExpression rules
  mark "]"
  return inner

/-- Whether a token may follow type arguments that are no part of a call. -/
def mayFollowTypeArguments (token : Token) : Bool :=
  token.newlineBefore ||
    match token.lexeme with
    | .mark symbol =>
        !(["<", ">", "+", "-", "(", "[", "`", "\x7b", "!", "~", "++", "--", "@", "/", "/="].contains
          symbol)
    | .word text _ => text == "instanceof" || text == "in" || text == "as" || text == "satisfies"
    | .finish => true
    | _ => false

/-- Reads type arguments after an expression, and the call, template or end that they need. -/
def typeArgumentsTail (rules : Rules) (start : Nat) (tree : Tree) : Parser Tree := do
  let types ← typeArguments rules
  let token ← peek
  if token.lexeme == .mark "(" then
    let items ← arguments rules
    node (.call false) start [tree, types, items]
  else if token.lexeme == .mark "`" then
    let quasi ← template rules true
    node .taggedTemplate start [tree, types, quasi]
  else
    require (mayFollowTypeArguments token)
    node .instantiation start [tree, types]

/-- Reads what follows `?.`. -/
def optionalLink (rules : Rules) (start : Nat) (tree : Tree) : Parser Tree := do
  if ← isMark "(" then
    let items ← arguments rules
    node (.call true) start [tree, .absent, items]
  else if ← acceptMark "[" then
    let key ← bracketed rules
    node (.computedMember true) start [tree, key]
  else if (← isTypeScript) && (← isMark "<") then
    let types ← typeArguments rules
    let items ← arguments rules
    node (.call true) start [tree, types, items]
  else
    let name ← memberName
    node (.member true) start [tree, name]

/-- Reads the members, calls and templates after an expression. An optional chain ends with them. -/
def links (rules : Rules) (start : Nat) (head : Tree) : Parser Tree :=
  loop (fun (tree, isChain) => do
    let token ← peek
    let finish : Parser ((Tree × Bool) ⊕ Tree) := do
      if isChain then return .inr (← node .chain start [tree]) else return .inr tree
    match token.lexeme with
    | .mark "." => do
        skip token
        let name ← memberName
        return .inl (← node (.member false) start [tree, name], isChain)
    | .mark "?." => do
        skip token
        return .inl (← optionalLink rules start tree, true)
    | .mark "[" => do
        skip token
        let key ← bracketed rules
        return .inl (← node (.computedMember false) start [tree, key], isChain)
    | .mark "(" => do
        let items ← arguments rules
        return .inl (← node (.call false) start [tree, .absent, items], isChain)
    | .mark "`" => do
        require (!isChain)
        let quasi ← template rules true
        return .inl (← node .taggedTemplate start [tree, .absent, quasi], isChain)
    | .mark "!" => do
        if (← isTypeScript) && !token.newlineBefore then
          skip token
          return .inl (← node .nonNull start [tree], isChain)
        else finish
    | .mark "<" => do
        if ← isTypeScript then
          match ← attempt (typeArgumentsTail rules start tree) with
          | some tree => return .inl (tree, isChain)
          | none => finish
        else finish
    | _ => finish) (head, false)

/-- Whether a tree is a dynamic import outside parentheses. -/
def isImportCall : Tree → Bool
  | .node (.importCall _) _ _ => true
  | _ => false

/-- Reads an expression that begins with `new`. What is created is neither a dynamic import nor the
beginning of an optional chain. -/
def construct (rules : Rules) : Parser Tree := do
  let start ← position
  word "new"
  if ← acceptMark "." then
    word "target"
    node (.metaProperty "new" "target") start []
  else
    let inner ← position
    let head ← primary rules
    let callee ← loop (fun tree => do
      let token ← peek
      match token.lexeme with
      | .mark "." => do
          skip token
          let name ← memberName
          return .inl (← node (.member false) inner [tree, name])
      | .mark "[" => do
          skip token
          let key ← bracketed rules
          return .inl (← node (.computedMember false) inner [tree, key])
      | .mark "`" => do
          let quasi ← template rules true
          return .inl (← node .taggedTemplate inner [tree, .absent, quasi])
      | .mark "!" => do
          if (← isTypeScript) && !token.newlineBefore then
            skip token
            return .inl (← node .nonNull inner [tree])
          else return .inr tree
      | _ => return .inr tree) head
    require (!isImportCall callee && !(← isMark "?."))
    let types ←
      if (← isTypeScript) && (← isMark "<") then do
        pure ((← attempt (typeArguments rules)).getD .absent)
      else pure Tree.absent
    let items ← if ← isMark "(" then arguments rules else node .group start []
    node .construct start [callee, types, items]

/-- Reads what may follow a primary expression, and the operators `++` and `--` after it. -/
def postfixTail (rules : Rules) (start : Nat) (head : Tree) : Parser Tree := do
  let tree ← links rules start head
  let token ← peek
  match token.lexeme with
  | .mark "++" | .mark "--" =>
      if token.newlineBefore then return tree
      else
        require tree.isSimpleTarget
        skip token
        let operator := if token.lexeme == .mark "++" then "++" else "--"
        node (.update operator false) start [tree]
  | _ => return tree

/-- Reads the type that an expression is taken for; `const` may stand for a type here. -/
def castType (rules : Rules) : Parser Tree := do
  let token ← peek
  if token.lexeme == .word "const" false then
    skip token
    let span : Span := ⟨token.start, token.stop⟩
    return .node .typeReference span [.reference span "const", .absent]
  else within (fun c => { c with noConditionalType := false }) (rules .type)

/-- Reads an expression with its prefix operators. -/
def unary (rules : Rules) : Parser Tree := do
  let token ← peek
  let start := token.start
  let apply (operator : String) : Parser Tree := do
    skip token
    let operand ← rules .unary
    node (.unary operator) start [operand]
  let step (operator : String) : Parser Tree := do
    skip token
    let operand ← rules .unary
    require operand.isSimpleTarget
    node (.update operator true) start [operand]
  match token.lexeme with
  | .word "delete" false => apply "delete"
  | .word "void" false => apply "void"
  | .word "typeof" false => apply "typeof"
  | .mark "+" => apply "+"
  | .mark "-" => apply "-"
  | .mark "~" => apply "~"
  | .mark "!" => apply "!"
  | .mark "++" => step "++"
  | .mark "--" => step "--"
  | .mark "<" => do
      let dialect := (← read).dialect
      if dialect.isTypeScript && !dialect.hasMarkup then
        skip token
        let type ← castType rules
        mark ">"
        let operand ← rules .unary
        node .typeAssertion start [type, operand]
      else postfixTail rules start (← primary rules)
  | .word "await" false => do
      if (← read).inAsync then
        skip token
        let operand ← rules .unary
        node .awaitValue start [operand]
      else postfixTail rules start (← primary rules)
  | _ => postfixTail rules start (← primary rules)

/-! ### Binary operators -/

/-- Reads the operators of at least a level, and their operands, after a first operand. -/
def binaryTail (rules : Rules) (start level : Nat) (head : Tree) : Parser Tree :=
  loop (fun left => do
    let token := wholeOperator (← peek)
    let context ← read
    let isCast := context.dialect.isTypeScript && !token.newlineBefore && level ≤ 8
    if isCast && token.lexeme == .word "as" false then
      skip token
      return .inl (← node .asType start [left, ← castType rules])
    else if isCast && token.lexeme == .word "satisfies" false then
      skip token
      return .inl (← node .satisfiesType start [left, ← castType rules])
    else
      match binaryOperator context.allowsIn token with
      | some (operator, its) =>
          if level ≤ its then
            skip token
            let right ← rules (.binary (if operator == "**" then its else its + 1))
            return .inl (← joinOperands operator start left right)
          else return .inr left
      | none => return .inr left) head

/-- Reads a chain of binary operators of at least a level. -/
def binary (rules : Rules) (level : Nat) : Parser Tree := do
  let token ← peek
  match token.lexeme with
  | .privateWord text =>
      skip token
      require (level ≤ 8 && (← read).allowsIn && (← isWord "in"))
      binaryTail rules token.start level (.node (.privateName text) ⟨token.start, token.stop⟩ [])
  | _ =>
      let head ← unary rules
      binaryTail rules token.start level head

/-! ### Conditionals and assignments -/

/-- Reads a conditional expression after its test, or gives the test. -/
def conditionalTail (rules : Rules) (start : Nat) (test : Tree) : Parser Tree := do
  if ← acceptMark "?" then
    let consequent ← within (fun c => { c with allowsIn := true, inConsequent := true })
      (rules .assignment)
    mark ":"
    let alternate ← rules .assignment
    node .conditional start [test, consequent, alternate]
  else return test

/-- Reads an assignment after its target, or gives the expression. -/
def assignmentTail (rules : Rules) (start : Nat) (left : Tree) : Parser Tree := do
  let token := wholeOperator (← peek)
  match token.lexeme with
  | .mark "=" =>
      match left.toTarget? with
      | some target =>
          skip token
          let value ← rules .assignment
          node (.assignment "=") start [target, value]
      | none => failure
  | .mark symbol =>
      if assignmentOperators.contains symbol then
        require left.isSimpleTarget
        skip token
        let value ← rules .assignment
        node (.assignment symbol) start [left, value]
      else return left
  | _ => return left

/-- Reads the rest of an assignment expression after a primary expression at its head. -/
def assignmentFrom (rules : Rules) (start : Nat) (head : Tree) : Parser Tree := do
  let operand ← postfixTail rules start head
  let test ← binaryTail rules start 0 operand
  let left ← conditionalTail rules start test
  assignmentTail rules start left

/-- Reads an assignment expression that is no arrow function. -/
def plainAssignment (rules : Rules) : Parser Tree := do
  let start ← position
  let test ← binary rules 0
  let left ← conditionalTail rules start test
  assignmentTail rules start left

/-- Whether a token after `yield` means that no value follows. -/
def endsYield (token : Token) : Bool :=
  match token.lexeme with
  | .mark ")" | .mark "]" | .mark "," | .mark ";" | .mark ":" => true
  | .closeBrace | .finish => true
  | .word "in" _ => true
  | _ => false

/-- Reads a yield expression. -/
def yieldExpression (rules : Rules) : Parser Tree := do
  let start ← position
  word "yield"
  let token ← peek
  if token.newlineBefore then node (.yieldValue false) start [.absent]
  else if token.lexeme == .mark "*" then
    skip token
    let argument ← rules .assignment
    node (.yieldValue true) start [argument]
  else if endsYield token then node (.yieldValue false) start [.absent]
  else
    let argument ← rules .assignment
    node (.yieldValue false) start [argument]

/-! ### Arrow functions -/

/-- Reads an arrow function from its arrow on. -/
def arrowTail (rules : Rules) (start : Nat) (isAsync : Bool)
    (typeParameters parameters returned : Tree) : Parser Tree := do
  let token ← peek
  require (token.lexeme == .mark "=>" && !token.newlineBefore)
  skip token
  if ← isAt .openBrace then
    let body ← within (Context.forFunction isAsync false) (functionBody rules)
    node (.arrow isAsync false false) start [typeParameters, parameters, returned, body]
  else
    let body ← within (fun c => { c with inAsync := isAsync, inGenerator := false })
      (rules .assignment)
    node (.arrow isAsync true false) start [typeParameters, parameters, returned, body]

/-- Reads an arrow function with types from its type parameters on. Between the question mark and
the colon of a conditional, a return type is one only if the colon still follows. -/
def typedArrow (rules : Rules) (start : Nat) (isAsync : Bool) : Parser Tree := do
  let context ← read
  let typeParameters ← typeParameters? rules
  let (this, items) ← within (fun c => { c with inAsync := isAsync, inGenerator := false })
    (parameters rules)
  require (!this.isPresent)
  let returned ← returnType? rules
  let tree ← arrowTail rules start isAsync typeParameters items returned
  require (!context.inConsequent || !returned.isPresent || (← isMark ":"))
  return tree

/-- Whether an arrow follows on the same line. -/
def isArrow : Parser Bool := do
  let token ← peek
  return token.lexeme == .mark "=>" && !token.newlineBefore

/-- Reads an arrow function whose only parameter is a name. -/
def singleArrow (rules : Rules) (start : Nat) (isAsync : Bool) : Parser Tree := do
  let name ← within (fun c => { c with inAsync := c.inAsync || isAsync }) name
  let parameter := Tree.node (.parameter {}) name.span
    [.absent, .node (.binding name.text) name.span []]
  arrowTail rules start isAsync .absent (.node .parameters name.span [parameter]) .absent

/-- Reads what begins with a parenthesis: an arrow function, or an expression at whose head stands
an expression in parentheses. -/
def fromParenthesis (rules : Rules) : Parser Tree := do
  let start ← position
  let before ← get
  match ← attempt (cover rules) with
  | some c =>
      if ← isArrow then
        match Tree.toParameters? c.span c.items with
        | some parameters => arrowTail rules start false .absent parameters .absent
        | none => failure
      else if (← isTypeScript) && (← isMark ":") then
        let after ← get
        set before
        match ← attempt (typedArrow rules start false) with
        | some tree => return tree
        | none =>
            set after
            assignmentFrom rules start (← c.expression)
      else assignmentFrom rules start (← c.expression)
  | none =>
      if ← isTypeScript then typedArrow rules start false else failure

/-- Reads what begins with `async`: an arrow function or any other expression. -/
def fromAsync (rules : Rules) : Parser Tree := do
  let start ← position
  let token ← next
  let following ← peek
  let span : Span := ⟨token.start, token.stop⟩
  let head := Tree.reference span "async"
  if following.newlineBefore then
    if ← isArrow then failure else assignmentFrom rules start head
  else
    match following.lexeme with
    | .mark "(" => do
        let before ← get
        match ← attempt (cover rules) with
        | some c =>
            if ← isArrow then
              match Tree.toParameters? c.span c.items with
              | some parameters => arrowTail rules start true .absent parameters .absent
              | none => failure
            else
              let after ← get
              let typed ←
                if (← isTypeScript) && (← isMark ":") then do
                  set before
                  attempt (typedArrow rules start true)
                else pure none
              match typed with
              | some tree => return tree
              | none =>
                  set after
                  let items := Tree.node .group c.span c.items
                  let call ← node (.call false) start [head, .absent, items]
                  assignmentFrom rules start call
        | none => if ← isTypeScript then typedArrow rules start true else failure
    | .mark "<" => do
        let typed ← if ← isTypeScript then attempt (typedArrow rules start true) else pure none
        match typed with
        | some tree => return tree
        | none => assignmentFrom rules start head
    | .word _ _ => do
        if (nameOf (← read) following).isSome && (← holds (do let _ ← next; isArrow)) then
          singleArrow rules start true
        else assignmentFrom rules start head
    | _ => assignmentFrom rules start head

/-- Whether type parameters of an arrow function may begin here. With markup, a tag could begin here
too, so a comma, a bound or a default has to show that it does not. -/
def maybeGenericArrow : Parser Bool := do
  let dialect := (← read).dialect
  if !dialect.isTypeScript then return false
  else if !dialect.hasMarkup then return true
  else
    holds do
      mark "<"
      let _ ← acceptWord "const"
      let _ ← name
      return (← isMark ",") || (← isMark "=") ||
        (← holds (do word "extends"; return !((← isMark "=") || (← isMark ">") || (← isMark "/"))))

/-- Reads an assignment expression. -/
def assignment (rules : Rules) : Parser Tree := do
  let token ← peek
  match token.lexeme with
  | .mark "(" => fromParenthesis rules
  | .mark "<" => do
      if ← maybeGenericArrow then
        match ← attempt (typedArrow rules token.start false) with
        | some tree => return tree
        | none => plainAssignment rules
      else plainAssignment rules
  | .word text isEscaped => do
      let context ← read
      if text == "yield" && !isEscaped && context.inGenerator then yieldExpression rules
      else if text == "async" && !isEscaped then
        if ← isAsyncFunction then plainAssignment rules
        else if ← holds (do let _ ← next; isArrow) then singleArrow rules token.start false
        else fromAsync rules
      else if (nameOf context token).isSome && (← holds (do let _ ← next; isArrow)) then
        singleArrow rules token.start false
      else plainAssignment rules
  | _ => plainAssignment rules

end Concise.Grammar
