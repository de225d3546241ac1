import Concise.Syntax.Tree
import Concise.Token.Basic

/-!
Parsers. A parser reads tokens from a cursor in a context and either fails or gives a result and the
cursor after it. What went wrong is not recorded: a text is in the language or it is not.

* `Context` says which dialect is read and what the surrounding construct allows.
* `Goal` names the constructs that contain each other. Every rule of the grammar takes a parser
  for goals as an argument, so that no rule refers to itself; `Concise.Grammar.Program` ties the
  rules together by recursion on the depth of nesting.
* `loop` repeats a step. It is bounded by the length of the text that remains, which every round
  but the last shortens.
-/

namespace Concise

/-- The language that a source is written in. -/
structure Dialect where
  isTypeScript : Bool
  /-- JSX may stand in expressions. -/
  hasMarkup : Bool
  /-- The source is a module, not a script. -/
  isModule : Bool
deriving DecidableEq, Inhabited

/-- What the surroundings of a construct allow. -/
structure Context where
  dialect : Dialect
  /-- The length of the whole text, which bounds every repetition. -/
  size : Nat
  /-- The operator `in` may stand outside parentheses. -/
  allowsIn : Bool := true
  /-- The word `await` begins an await expression. -/
  inAsync : Bool := false
  /-- The word `yield` begins a yield expression. -/
  inGenerator : Bool := false
  /-- A return statement may stand here. -/
  inFunction : Bool := false
  /-- Declarations here describe what exists elsewhere. -/
  isAmbient : Bool := false
  /-- The expression stands between the question mark and the colon of a conditional. -/
  inConsequent : Bool := false
  /-- A conditional type may not stand here outside parentheses. -/
  noConditionalType : Bool := false
deriving Inhabited

/-- The constructs that contain each other. -/
inductive Goal where
  | statement
  | assignment
  /-- A chain of binary operators of at least the given level. -/
  | binary (level : Nat)
  | unary
  /-- An expression that begins with `new`. -/
  | construct
  | pattern
  | type
  | element
deriving Inhabited

/-- Reads tokens in a context; fails or gives a result. -/
abbrev Parser := ReaderT Context (StateT Cursor Option)

/-- Reads any construct. -/
abbrev Rules := Goal → Parser Tree

namespace Parser

/-- The next token. -/
def peek : Parser Token := do
  (← get).token

/-- Takes the given token, which must be the next one. -/
def skip (token : Token) : Parser Unit :=
  modify (·.take token)

/-- Takes the next token. -/
def next : Parser Token := do
  let token ← peek
  skip token
  return token

/-- Gives nothing and stays if a parser fails. -/
def attempt {α : Type} (p : Parser α) : Parser (Option α) :=
  fun context cursor =>
    match p context cursor with
    | some (result, after) => some (some result, after)
    | none => some (none, cursor)

/-- Whether a condition on what follows holds; a parser that fails counts as `false`. -/
def holds (p : Parser Bool) : Parser Bool :=
  fun context cursor =>
    match p context cursor with
    | some (result, _) => some (result, cursor)
    | none => some (false, cursor)

/-- Fails unless a condition holds. -/
def require (condition : Bool) : Parser Unit :=
  if condition then pure () else failure

/-- Runs a parser in a changed context. -/
def within {α : Type} (change : Context → Context) (p : Parser α) : Parser α :=
  fun context => p (change context)

/-- Repeats a step until it gives a result on the right. -/
def loopFrom {α β : Type} (step : α → Parser (α ⊕ β)) (context : Context) :
    Nat → α → Cursor → Option (β × Cursor)
  | 0, _, _ => none
  | n + 1, a, cursor =>
      match step a context cursor with
      | none => none
      | some (.inl a, cursor) => loopFrom step context n a cursor
      | some (.inr b, cursor) => some (b, cursor)

/-- Repeats a step until it gives a result on the right; every round but the last has to take a
token. -/
def loop {α β : Type} (step : α → Parser (α ⊕ β)) (initial : α) : Parser β :=
  fun context cursor => loopFrom step context (context.size + 2) initial cursor

/-! ### Tokens -/

/-- The offset of the next token. -/
def position : Parser Nat := do
  return (← peek).start

/-- The span from an offset to the end of the last token. -/
def spanFrom (start : Nat) : Parser Span := do
  return ⟨start, (← get).offset⟩

/-- Whether the next token is the given one. -/
def isAt (lexeme : Lexeme) : Parser Bool := do
  return (← peek).lexeme == lexeme

/-- Takes the next token if it is the given one. -/
def accept (lexeme : Lexeme) : Parser Bool := do
  let token ← peek
  if token.lexeme == lexeme then
    skip token
    return true
  else return false

/-- Takes the given token. -/
def expect (lexeme : Lexeme) : Parser Unit := do
  require (← accept lexeme)

/-- Whether the next token is a punctuator. -/
def isMark (symbol : String) : Parser Bool := isAt (.mark symbol)

/-- Takes a punctuator if it follows. -/
def acceptMark (symbol : String) : Parser Bool := accept (.mark symbol)

/-- Takes a punctuator. -/
def mark (symbol : String) : Parser Unit := expect (.mark symbol)

/-- Whether the next token is an unescaped word. -/
def isWord (text : String) : Parser Bool := isAt (.word text false)

/-- Takes an unescaped word if it follows. -/
def acceptWord (text : String) : Parser Bool := accept (.word text false)

/-- Takes an unescaped word. -/
def word (text : String) : Parser Unit := expect (.word text false)

/-- Ends a statement: a semicolon, or a place where one may be left out. -/
def semicolon : Parser Unit := do
  let token ← peek
  if token.lexeme == .mark ";" then skip token
  else require (token.lexeme == .closeBrace || token.lexeme == .finish || token.newlineBefore)

/-- Reads items parted by commas up to a closing mark; a comma may stand before the mark. -/
def delimited {α : Type} (close : Lexeme) (item : Parser α) : Parser (List α) :=
  loop (fun items => do
    if ← accept close then
      return .inr items.reverse
    let x ← item
    if ← acceptMark "," then
      return .inl (x :: items)
    expect close
    return .inr (x :: items).reverse) []

/-- Reads items up to a closing mark. -/
def itemsUntil {α : Type} (close : Lexeme) (item : Parser α) : Parser (List α) :=
  loop (fun items => do
    if ← accept close then
      return .inr items.reverse
    return .inl ((← item) :: items)) []

/-- Reads one or more items parted by a mark. -/
def separatedBy {α : Type} (symbol : String) (item : Parser α) : Parser (List α) := do
  let first ← item
  loop (fun items => do
    if ← acceptMark symbol then
      return .inl ((← item) :: items)
    return .inr items.reverse) [first]

/-- A node that begins at an offset and ends with the last token. -/
def node (kind : Kind) (start : Nat) (parts : List Tree) : Parser Tree := do
  return .node kind (← spanFrom start) parts

/-- Runs a parser if a condition holds; otherwise the part is absent. -/
def optional (condition : Bool) (p : Parser Tree) : Parser Tree :=
  if condition then p else pure .absent

/-- Whether the dialect is TypeScript. -/
def isTypeScript : Parser Bool := do
  return (← read).dialect.isTypeScript

/-! ### Names -/

/-- The words that cannot be names. -/
def reservedWords : List String :=
  ["break", "case", "catch", "class", "const", "continue", "debugger", "default", "delete", "do",
   "else", "enum", "export", "extends", "false", "finally", "for", "function", "if", "import", "in",
   "instanceof", "new", "null", "return", "super", "switch", "this", "throw", "true", "try",
   "typeof", "var", "void", "while", "with"]

/-- Whether a word may name something in a context. -/
def isNameIn (context : Context) (text : String) : Bool :=
  !reservedWords.contains text && !(context.inAsync && text == "await") &&
    !(context.inGenerator && text == "yield")

/-- The name that a token spells, if it may be one here. -/
def nameOf (context : Context) (token : Token) : Option String :=
  match token.lexeme with
  | .word text _ => if isNameIn context text then some text else none
  | _ => none

/-- Whether the next token is a name. -/
def isName : Parser Bool := do
  return (nameOf (← read) (← peek)).isSome

/-- Reads a name. -/
def name : Parser Name := do
  let token ← peek
  match nameOf (← read) token with
  | some text =>
      skip token
      return ⟨text, ⟨token.start, token.stop⟩⟩
  | none => failure

/-- Reads any word, reserved or not. -/
def anyWord : Parser Name := do
  let token ← peek
  match token.lexeme with
  | .word text _ =>
      skip token
      return ⟨text, ⟨token.start, token.stop⟩⟩
  | _ => failure

/-- Reads a name that is declared here. -/
def binding : Parser Tree := do
  let name ← name
  return .node (.binding name.text) name.span []

/-- Reads a name that refers to something. -/
def reference : Parser Tree := do
  let name ← name
  return .reference name.span name.text

/-- Reads a word that is neither declared nor refers to anything. -/
def plainWord : Parser Tree := do
  let name ← anyWord
  return .node (.word name.text) name.span []

/-- Reads a string literal. -/
def string : Parser Tree := do
  let token ← peek
  match token.lexeme with
  | .string value _ hasLone =>
      skip token
      return .node (.string value hasLone) ⟨token.start, token.stop⟩ []
  | _ => failure

end Parser

end Concise
