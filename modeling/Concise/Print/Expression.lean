import Concise.Print.Function

/-!
Printed expressions. Parentheses are not kept but made anew: an expression is put in parentheses if
it binds at most as tightly as the level of its place, if a limit of its place forbids it, or if it
would be read as something else at the start of a statement.
-/

namespace Concise.Print

/-! ### Literals -/

/-- Prints a number. A dot after plain digits would be taken for their point. -/
def number (raw : String) : Printer Unit := do
  match Numeral.value? raw with
  | none => word "Infinity"
  | some value => do
      let spelling := Numeral.print value
      word spelling
      if !spelling.toList.any fun c => c == '.' || c == 'e' || c == 'x' then
        modify fun out => { out with numberEnd := some out.size }

/-- Prints a string literal. -/
def string (value : String) (hasLone : Bool) : Printer Unit := do
  text (quoted (← read).quote value hasLone)

/-- Prints a regular expression. -/
def regularExpression (pattern flags : String) : Printer Unit := do
  match ← last? with
  | some '/' => blank
  | some '<' => if (pattern.toList.take 6).map Char.toLower == "script".toList then blank
  | _ => pure ()
  text ("/" ++ pattern ++ "/" ++ flags)
  modify fun out => { out with patternEnd := some out.size }

/-- Prints an object literal: one member on the same line, more on lines of their own. -/
def object (rules : Rules) (span : Span) (members : List Tree) : Printer Unit := do
  let out ← get
  let hasComments ← hasComments span.start
  let wraps := hasComments || out.statementStart == some out.size || out.arrowStart == some out.size
  parenthesizedIf wraps do
    if hasComments then
      leadingComments span.start
      indentation
    openBrace
    match members with
    | [] => pure ()
    | [member] => do
        blank
        rules .item member
        blank
    | _ => lined (rules .item) members
    closeBrace

/-- Prints an array literal: up to two elements on the same line. -/
def array (rules : Rules) (items : List Tree) : Printer Unit := do
  let item (tree : Tree) : Printer Unit := rules .item tree
  let endsWithHole :=
    match items.getLast? with
    | some (.node .hole _ _) => true
    | _ => false
  text "["
  if 2 < items.length then
    indented do
      newline
      indentation
      separated (do text ","; newline; indentation) item items
      if endsWithHole then text ","
    newline
    indentation
  else
    listed item items
    if endsWithHole then text ","
  text "]"

/-! ### Members and calls -/

/-- Prints a member. -/
def member (rules : Rules) (limits : Limits) (isOptional : Bool) (object name : Tree) :
    Printer Unit := do
  rules (.part Level.update limits.onlyCall) object
  let out ← get
  if isOptional then text "?"
  else if out.numberEnd == some out.size then blank
  text "."
  rules .loose name

/-- Prints a member whose name is computed. -/
def computedMember (rules : Rules) (limits : Limits) (isOptional : Bool) (object name : Tree) :
    Printer Unit := do
  let isLet :=
    match object with
    | .reference _ "let" => true
    | _ => false
  parenthesizedIf isLet (rules (.part Level.update limits.onlyCall) object)
  if isOptional then text "?."
  text "["
  rules .loose name
  text "]"

/-- Prints arguments with their comments: every argument on a line of its own. -/
def commentedArguments (rules : Rules) (stop : Nat) (items : List Tree) : Printer Unit := do
  indented do
    separated (text ",") (fun item => do
      if !(← argumentComments item.span.start) then newline
      indentation
      rules .item item) items
    if !(← argumentComments (stop - 1)) then newline
  indentation

/-- Prints arguments in parentheses; `stop` is the end of the call. -/
def arguments (rules : Rules) (stop : Nat) (items : List Tree) : Printer Unit := do
  text "("
  let offsets := (stop - 1) :: items.map fun item => item.span.start
  if (← get).comments.any fun c => offsets.contains c.target then
    commentedArguments rules stop items
  else listed (rules .item) items
  text ")"

/-- Prints a call. -/
def call (rules : Rules) (level : Level) (limits : Limits) (stop : Nat) (isOptional : Bool)
    (callee types items : Tree) : Printer Unit := do
  let out ← get
  parenthesizedIf (Level.construct ≤ level || limits.forbidsCall) do
    if out.exportStart == some out.size then
      modify fun out => { out with exportStart := some out.size }
    else if out.statementStart == some out.size then
      modify fun out => { out with statementStart := some out.size }
    rules (.part Level.update {}) callee
    if isOptional then text "?."
    present rules types
    arguments rules stop items.parts

/-- Prints the creation of an object; type arguments are left out. -/
def construct (rules : Rules) (level : Level) (stop : Nat) (callee items : Tree) : Printer Unit :=
  parenthesizedIf (Level.construct ≤ level) do
    word "new "
    rules (.part Level.construct { forbidsCall := true }) callee
    arguments rules stop items.parts

/-- Prints a dynamic import. -/
def importCall (rules : Rules) (level : Level) (limits : Limits) (phase : Option String)
    (source options : Tree) : Printer Unit :=
  parenthesizedIf (Level.construct ≤ level || limits.forbidsCall) do
    word "import"
    if let some name := phase then text ("." ++ name)
    text "("
    rules .item source
    if options.isPresent then
      text ", "
      rules .item options
    text ")"

/-- Prints a tagged template. -/
def taggedTemplate (rules : Rules) (tag types quasi : Tree) : Printer Unit := do
  rules (.part Level.update {}) tag
  present rules types
  rules .loose quasi

/-! ### Operators -/

/-- Whether a prefix operator is a word. -/
def isWordOperator (symbol : String) : Bool :=
  symbol == "typeof" || symbol == "void" || symbol == "delete"

/-- Prints a prefix operator and its operand. -/
def unary (rules : Rules) (level : Level) (limits : Limits) (symbol : String) (operand : Tree) :
    Printer Unit :=
  parenthesizedIf (Level.unary ≤ level) do
    if isWordOperator symbol then
      word symbol
      blank
    else operator symbol
    rules (.part Level.power limits) operand

/-- Prints `++` or `--` before or after its operand. -/
def update (rules : Rules) (level : Level) (limits : Limits) (symbol : String) (isPrefixed : Bool)
    (operand : Tree) : Printer Unit :=
  if isPrefixed then
    parenthesizedIf (Level.unary ≤ level) do
      operator symbol
      rules (.part Level.unary limits) operand
  else
    parenthesizedIf (Level.update ≤ level) do
      rules (.part Level.update limits) operand
      text symbol

/-- Prints an await expression. -/
def awaitValue (rules : Rules) (level : Level) (limits : Limits) (operand : Tree) : Printer Unit :=
  parenthesizedIf (Level.unary ≤ level) do
    word "await "
    rules (.part Level.power limits) operand

/-- Prints a yield expression. -/
def yieldValue (rules : Rules) (level : Level) (isDelegate : Bool) (operand : Tree) :
    Printer Unit :=
  parenthesizedIf (Level.assign ≤ level) do
    word "yield"
    if isDelegate then text "*"
    if operand.isPresent then
      blank
      rules (.part Level.yield {}) operand

/-- Whether a tree is a logical expression with `||` or `&&`. -/
def isOrAnd (tree : Tree) : Bool :=
  match tree.withoutParentheses with
  | .node (.logical symbol) _ _ => symbol == "||" || symbol == "&&"
  | _ => false

/-- Whether a tree is a logical expression with the given operator. -/
def isLogicalWith (symbol : String) (tree : Tree) : Bool :=
  match tree.withoutParentheses with
  | .node (.logical other) _ _ => other == symbol
  | _ => false

/-- Whether a tree is a prefix operator and its operand. -/
def isPrefixed (tree : Tree) : Bool :=
  match tree.withoutParentheses with
  | .node (.unary _) _ _ => true
  | .node .awaitValue _ _ => true
  | _ => false

/-- The levels of the two operands of an operator. -/
def operandLevels (symbol : String) (left right : Tree) : Level × Level :=
  let own := Level.ofOperator symbol
  if symbol == "**" then (if isPrefixed left then Level.call else own, own - 1)
  else if symbol == "??" then
    (if isOrAnd left then Level.unary else own - 1,
      if isOrAnd right then Level.unary else if isLogicalWith symbol right then own - 1 else own)
  else (own - 1, if isLogicalWith symbol right then own - 1 else own)

/-- Prints two operands and the operator between them. -/
def binary (rules : Rules) (level : Level) (limits : Limits) (symbol : String) (left right : Tree) :
    Printer Unit := do
  let wraps := Level.ofOperator symbol ≤ level || (symbol == "in" && limits.forbidsIn)
  let limits := if wraps then { limits with forbidsIn := false } else limits
  let (leftLevel, rightLevel) := operandLevels symbol left right
  parenthesizedIf wraps do
    rules (.part leftLevel limits) left
    text (" " ++ symbol ++ " ")
    rules (.part rightLevel limits.onlyIn) right

/-- Prints a conditional expression. -/
def conditional (rules : Rules) (level : Level) (limits : Limits)
    (test consequent alternate : Tree) : Printer Unit :=
  let wraps := decide (Level.conditional ≤ level)
  let limits := if wraps then {} else limits.onlyIn
  parenthesizedIf wraps do
    rules (.part Level.conditional limits) test
    text " ? "
    rules (.part Level.yield {}) consequent
    text " : "
    rules (.part Level.yield limits) alternate

/-- Whether a tree is an object target. -/
def isObjectTarget : Tree → Bool
  | .node .objectTarget _ _ => true
  | _ => false

/-- Prints an assignment. An object target at the start of a statement needs parentheses. -/
def assignment (rules : Rules) (level : Level) (limits : Limits) (symbol : String)
    (target value : Tree) : Printer Unit := do
  let out ← get
  let atStart := out.statementStart == some out.size || out.arrowStart == some out.size
  parenthesizedIf (Level.assign ≤ level || (atStart && isObjectTarget target)) do
    rules (.part Level.comma limits) target
    text (" " ++ symbol ++ " ")
    rules (.part Level.comma limits) value

/-- Prints a sequence. -/
def sequence (rules : Rules) (level : Level) (limits : Limits) (items : List Tree) : Printer Unit :=
  parenthesizedIf (Level.comma ≤ level)
    (listed (rules (.part Level.lowest limits.onlyIn)) items)

/-! ### Types in expressions -/

/-- Prints `as` and a type after an expression. -/
def asType (rules : Rules) (level : Level) (limits : Limits) (tree type : Tree) : Printer Unit :=
  parenthesizedIf (Level.shift ≤ level) do
    rules (.part Level.power limits) tree
    text " as "
    rules .loose type

/-- Whether a tree is a function that brings its own parentheses. -/
def bringsParentheses (tree : Tree) : Bool :=
  match tree.withoutParentheses with
  | .function _ head _ _ _ _ _ => head.wasParenthesized
  | _ => false

/-- Prints `satisfies` and a type after an expression in parentheses. -/
def satisfiesType (rules : Rules) (level : Level) (tree type : Tree) : Printer Unit := do
  text "("
  parenthesizedIf (!bringsParentheses tree) (rules (.part level {}) tree)
  text " satisfies "
  rules .loose type
  text ")"

/-- Prints a type assertion, always in parentheses. -/
def typeAssertion (rules : Rules) (limits : Limits) (type tree : Tree) : Printer Unit := do
  text "(<"
  rules .loose type
  text ">"
  rules (.part Level.member limits) tree
  text ")"

/-- Prints the mark that a value is present. -/
def nonNull (rules : Rules) (tree : Tree) : Printer Unit := do
  rules (.part Level.update {}) tree
  text "!"

end Concise.Print
