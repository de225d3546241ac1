import Concise.Grammar.Function

/-!
JSX. Inside a tag the usual tokens are read, except that names may hold hyphens and that a quoted
attribute is raw text without escapes. Between tags all is raw text up to a brace or a tag.

A tag refers to a component if it has no hyphen and no namespace and begins with an upper-case
letter, `_`, `$` or a letter beyond ASCII; the first name of a dotted tag refers always.
-/

namespace Concise.Grammar

open Concise.Parser

/-- Moves the cursor over raw text. -/
def skipTo (rest : List Char) : Parser Unit :=
  modify fun cursor =>
    { cursor with
      rest, offset := cursor.offset + Cursor.consumed cursor.rest rest, isFresh := false
      opens := false }

/-- Reads a word that may hold hyphens. -/
def hyphenatedWord : Parser Name := do
  let token ← peek
  match token.lexeme with
  | .word text false =>
      let isRest (c : Char) : Bool := Identifier.isPart c || c == '-'
      let more := token.after.takeWhile isRest
      skip token
      skipTo (token.after.dropWhile isRest)
      return ⟨text ++ String.ofList more, ⟨token.start, token.stop + byteLength more⟩⟩
  | _ => failure

/-- Whether a tag of one word refers to a component. -/
def isComponentName (text : String) : Bool :=
  match text.toList with
  | [] => false
  | c :: cs =>
      ('A' ≤ c && c ≤ 'Z' || c == '_' || c == '$' || 0x80 ≤ c.toNat) && !cs.contains '-'

/-- Reads the name of a tag, and its spelling for comparison with the closing tag. What follows a
dot has no hyphen. -/
def tag : Parser (Tree × String) := do
  let start ← position
  let head ← hyphenatedWord
  if ← acceptMark ":" then
    let local' ← hyphenatedWord
    let tree ← node (.namespacedName head.text local'.text) start []
    return (tree, head.text ++ ":" ++ local'.text)
  else
    let isDotted ← isMark "."
    let root :=
      if head.text == "this" then Tree.node .thisValue head.span []
      else if isDotted || isComponentName head.text then Tree.reference head.span head.text
      else Tree.node (.tagName head.text) head.span []
    loop (fun (tree, text) => do
      if ← acceptMark "." then
        let member ← hyphenatedWord
        require (!member.text.toList.contains '-')
        let property := Tree.node (.word member.text) member.span []
        return .inl (← node .tagMember start [tree, property], text ++ "." ++ member.text)
      return .inr (tree, text)) (root, head.text)

/-- Reads a quoted attribute, if one follows: the text between its quotes. -/
def quotedAttribute? : Parser (Option Tree) := do
  let cursor ← get
  let seen : Trivia.Seen := ⟨[], false, false⟩
  match Trivia.scan false false .outside seen cursor.offset cursor.rest with
  | some (_, start, quote :: rest) =>
      if quote == '"' || quote == '\'' then
        let raw := rest.takeWhile (· != quote)
        match rest.dropWhile (· != quote) with
        | _ :: after =>
            skipTo after
            return some (← node (.attributeText (String.ofList raw)) start [])
        | [] => failure
      else return none
  | _ => return none

/-- Reads an expression in braces, after the opening brace. -/
def containerTail (rules : Rules) (start : Nat) : Parser Tree := do
  let inner ← fullExpression rules
  expect .closeBrace
  node .container start [inner]

/-- Reads the value of an attribute. -/
def attributeValue (rules : Rules) : Parser Tree := do
  match ← quotedAttribute? with
  | some text => return text
  | none =>
      let start ← position
      if ← accept .openBrace then containerTail rules start
      else rules .element

/-- Reads an attribute. -/
def tagAttribute (rules : Rules) : Parser Tree := do
  let start ← position
  if ← accept .openBrace then
    mark "..."
    let argument ← fullExpression rules
    expect .closeBrace
    node .spreadAttribute start [argument]
  else
    let head ← hyphenatedWord
    let name ←
      if ← acceptMark ":" then do
        let local' ← hyphenatedWord
        node (.namespacedName head.text local'.text) start []
      else pure (Tree.node (.tagName head.text) head.span [])
    let value ← optional (← acceptMark "=") (attributeValue rules)
    node .tagAttribute start [name, value]

/-- Reads a child in braces. -/
def bracedChild (rules : Rules) : Parser Tree := do
  let start ← position
  expect .openBrace
  let inner := (← get).offset
  if ← acceptMark "..." then
    let argument ← fullExpression rules
    expect .closeBrace
    node .spreadChild start [argument]
  else
    let token ← peek
    if token.lexeme == .closeBrace then
      skip token
      node .container start [.node .emptyExpression ⟨inner, token.start⟩ []]
    else containerTail rules start

/-- Reads the children of an element up to the mark `<` and the slash of the closing tag. -/
def children (rules : Rules) : Parser (List Tree) :=
  loop (fun items => do
    let cursor ← get
    let isText (c : Char) : Bool := c != '{' && c != '<' && c != '}' && c != '>'
    let raw := cursor.rest.takeWhile isText
    if !raw.isEmpty then
      skipTo (cursor.rest.dropWhile isText)
      return .inl ((← node (.markupText (String.ofList raw)) cursor.offset []) :: items)
    else
      match cursor.rest with
      | '{' :: _ => return .inl ((← bracedChild rules) :: items)
      | '<' :: _ =>
          if ← holds (do mark "<"; isMark "/") then
            mark "<"
            mark "/"
            return .inr items.reverse
          else return .inl ((← rules .element) :: items)
      | _ => failure) []

/-- Reads the children of an element and its closing tag, which is spelled as the given text. -/
def contents (rules : Rules) (text : String) : Parser (Tree × Tree) := do
  let inner := (← get).offset
  let items ← children rules
  let items ← node .group inner items
  let (closing, closingText) ← tag
  require (closingText == text)
  mark ">"
  return (items, closing)

/-- Reads an element or a fragment. -/
def element (rules : Rules) : Parser Tree := do
  let start ← position
  mark "<"
  if ← acceptMark ">" then
    let items ← children rules
    mark ">"
    node .fragment start items
  else
    let (name, text) ← tag
    let types ← if ← isTypeScript then typeArguments? rules else pure Tree.absent
    let opening ← position
    let attributes ← loop (fun items => do
      if (← isMark "/") || (← isMark ">") then return .inr items.reverse
      else return .inl ((← tagAttribute rules) :: items)) []
    let attributes ← node .group opening attributes
    if ← acceptMark "/" then
      mark ">"
      node (.element true) start [name, types, attributes, .absent, .absent]
    else
      mark ">"
      let (items, closing) ← contents rules text
      node (.element false) start [name, types, attributes, items, closing]

end Concise.Grammar
