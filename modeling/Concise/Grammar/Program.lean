import Concise.Grammar.Module

/-!
Programs. The rules of the grammar are tied together by recursion on the depth of nesting, which the
length of the text bounds.

* `Program.parse?` reads a whole text. It gives a tree in which expressions in parentheses are nodes
  of their own, or a tree without such nodes.
* A shorthand property with an initialiser is read wherever an object literal may stand, because a
  pattern may turn out to be meant. A program in which one is left is refused.
-/

namespace Concise

open Concise.Parser

namespace Grammar

/-- Reads a statement that begins with decorators. -/
def decorated (rules : Rules) : Parser Tree := do
  let start ← position
  let applied ← decorators rules
  if ← isWord "export" then exportStatement rules start applied
  else
    let isDeclare ← if ← isTypeScript then acceptWord "declare" else pure false
    classDeclaration rules start applied isDeclare

/-- Reads a statement. -/
def statement (rules : Rules) : Parser Tree := do
  let token ← peek
  match token.lexeme with
  | .openBrace => block rules
  | .mark ";" => do
      skip token
      return .node .emptyStatement ⟨token.start, token.stop⟩ []
  | .mark "@" => decorated rules
  | .word "if" false => ifStatement rules
  | .word "for" false => forStatement rules
  | .word "while" false => whileStatement rules
  | .word "do" false => doStatement rules
  | .word "continue" false => jumpStatement "continue" .continueTo
  | .word "break" false => jumpStatement "break" .breakTo
  | .word "return" false => returnStatement rules
  | .word "throw" false => throwStatement rules
  | .word "switch" false => switchStatement rules
  | .word "try" false => tryStatement rules
  | .word "with" false => withStatement rules
  | .word "debugger" false => debuggerStatement
  | .word "export" false => exportStatement rules token.start .absent
  | .word "import" false => do
      if ← holds (do word "import"; return (← isMark "(") || (← isMark ".")) then
        expressionOrLabel rules
      else importStatement
  | .word _ _ => do
      match ← declaration? rules with
      | some tree => return tree
      | none => expressionOrLabel rules
  | _ => expressionOrLabel rules

/-- Reads a construct with at most the given number of constructs around each other. -/
def goal : Nat → Rules
  | 0, _ => failure
  | depth + 1, .statement => statement (goal depth)
  | depth + 1, .assignment => assignment (goal depth)
  | depth + 1, .binary level => binary (goal depth) level
  | depth + 1, .unary => unary (goal depth)
  | depth + 1, .construct => construct (goal depth)
  | depth + 1, .pattern => pattern (goal depth)
  | depth + 1, .type => type (goal depth)
  | depth + 1, .element => element (goal depth)

/-- A depth of nesting that no text of the given length exceeds. -/
def depthBound (length : Nat) : Nat := 8 * length + 16

end Grammar

namespace Tree

mutual

/-- Whether a shorthand property with an initialiser is left in a tree. -/
def hasCover : Tree → Bool
  | reference _ _ => false
  | property _ _ key value => key.hasCover || value.hasCover
  | function _ _ typeParameters this parameters returned body =>
      typeParameters.hasCover || this.hasCover || parameters.hasCover || returned.hasCover ||
        body.hasCover
  | node kind _ parts => kind == .coverInitialized || anyCover parts

/-- Whether a shorthand property with an initialiser is left in one of some trees. -/
def anyCover : List Tree → Bool
  | [] => false
  | t :: ts => t.hasCover || anyCover ts

end

mutual

/-- The tree without nodes for parentheses. -/
def unwrap : Tree → Tree
  | reference span name => reference span name
  | property span form key value => property span form key.unwrap value.unwrap
  | function span head typeParameters this parameters returned body =>
      function span head typeParameters.unwrap this.unwrap parameters.unwrap returned.unwrap
        body.unwrap
  | node .parenthesized _ [inner] => inner.unwrap
  | node .parenthesizedType _ [inner] => inner.unwrap
  | node kind span parts => node kind span (unwrapAll parts)

/-- The trees without nodes for parentheses. -/
def unwrapAll : List Tree → List Tree
  | [] => []
  | t :: ts => t.unwrap :: unwrapAll ts

end

end Tree

/-- A source that has been read. -/
structure Program where
  dialect : Dialect
  tree : Tree
  /-- The comments that lead tokens, in document order. -/
  comments : List Comment
deriving Inhabited

namespace Program

/-- The characters up to the end of the first line, and the rest. -/
def splitLine (text : List Char) : List Char × List Char :=
  text.span fun c => !Trivia.isLineTerminator c

/-- Splits the line that names an interpreter off a text. -/
def splitHashbang : List Char → Option String × List Char
  | '#' :: '!' :: rest =>
      let (line, rest) := splitLine rest
      (some (String.ofList line), rest)
  | text => (none, text)

/-- The context at the top of a program. A module may await there. -/
def topContext (dialect : Dialect) (size : Nat) : Context :=
  { dialect, size, inAsync := dialect.isModule }

/-- Reads a whole text; `keepsParentheses` says whether parentheses become nodes. -/
def parse? (dialect : Dialect) (keepsParentheses : Bool) (source : String) : Option Program := do
  let text := source.toList
  let (hashbang, rest) := splitHashbang text
  let cursor := { Cursor.start (!dialect.isModule) rest with offset := Cursor.consumed text rest }
  let rules := Grammar.goal (Grammar.depthBound text.length)
  let (items, cursor) ← Grammar.bodyItems rules .finish (topContext dialect text.length) cursor
  let tree := Tree.node (.program hashbang) ⟨0, Cursor.consumed text []⟩ items
  if tree.hasCover then none
  else
    return {
      dialect
      tree := if keepsParentheses then tree else tree.unwrap
      comments := cursor.comments.reverse }

end Program

end Concise
