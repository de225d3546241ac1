import Concise.Grammar.Statement

/-!
Type-level declarations: type aliases, interfaces, enumerations, namespaces and aliases of modules,
each perhaps after `declare` or `abstract`.

The words that begin them are names elsewhere, so each declaration is read only if what follows its
first word, on the same line, continues it.
-/

namespace Concise.Grammar

open Concise.Parser

/-- Whether the next word is the given one and a name follows it on the same line. -/
def precedesName (text : String) : Parser Bool :=
  holds do
    word text
    let token ← peek
    return (← isName) && !token.newlineBefore

/-- Reads a type alias. -/
def typeAlias (rules : Rules) (start : Nat) (isDeclare : Bool) : Parser Tree := do
  word "type"
  let name ← binding
  let parameters ← typeParameters? rules
  mark "="
  let type ← rules .type
  semicolon
  node (.typeAlias isDeclare) start [name, parameters, type]

/-- Reads an interface. -/
def interfaceDeclaration (rules : Rules) (start : Nat) (isDeclare : Bool) : Parser Tree := do
  word "interface"
  let name ← binding
  let parameters ← typeParameters? rules
  let parents ←
    if ← acceptWord "extends" then do
      let start ← position
      node .group start (← separatedBy "," (heritage rules))
    else pure Tree.absent
  let inner ← position
  let members ← typeMembers rules
  let body ← node .group inner members
  node (.interfaceDefinition isDeclare) start [name, parameters, parents, body]

/-- Reads a member of an enumeration. -/
def enumMember (rules : Rules) : Parser Tree := do
  let start ← position
  let (key, isComputed) ← memberKey rules
  let value ← optional (← acceptMark "=") (rules .assignment)
  node (.enumMember isComputed) start [key, value]

/-- Reads an enumeration. -/
def enumDeclaration (rules : Rules) (start : Nat) (isDeclare : Bool) : Parser Tree := do
  let isConst ← acceptWord "const"
  word "enum"
  let name ← binding
  expect .openBrace
  let members ← delimited .closeBrace (enumMember rules)
  node (.enumDefinition isConst isDeclare) start (name :: members)

/-- Reads the statements of a namespace in braces. -/
def moduleBlock (rules : Rules) (isDeclare : Bool) : Parser Tree := do
  let start ← position
  expect .openBrace
  let items ← within
    (fun c => { c with isAmbient := c.isAmbient || isDeclare, inFunction := false })
    (bodyItems rules .closeBrace)
  node .moduleBlock start items

/-- The namespace that a dotted name and a body define: one inside the other. -/
def nestNamespaces (keyword : String) (isDeclare : Bool) (stop : Nat) (body : Tree) :
    List Tree → Tree
  | [] => body
  | name :: names =>
      .node (.moduleDefinition keyword isDeclare) ⟨name.span.start, stop⟩
        [name, nestNamespaces keyword isDeclare stop body names]

/-- Reads a namespace with a name. -/
def namespaceDeclaration (rules : Rules) (start : Nat) (keyword : String) (isDeclare : Bool) :
    Parser Tree := do
  word keyword
  let names ← separatedBy "." binding
  let body ← moduleBlock rules isDeclare
  match nestNamespaces keyword isDeclare (← get).offset body names with
  | .node kind _ parts => node kind start parts
  | _ => failure

/-- Reads a module that is named by a string, perhaps without a body. -/
def quotedModule (rules : Rules) (start : Nat) (isDeclare : Bool) : Parser Tree := do
  word "module"
  let name ← string
  let body ←
    if ← isAt .openBrace then moduleBlock rules isDeclare
    else do
      semicolon
      pure Tree.absent
  node (.moduleDefinition "module" isDeclare) start [name, body]

/-- Reads a declaration of global names. -/
def globalDeclaration (rules : Rules) (start : Nat) (isDeclare : Bool) : Parser Tree := do
  let token ← next
  require (token.lexeme == .word "global" false)
  let name := Tree.node (.binding "global") ⟨token.start, token.stop⟩ []
  let body ← moduleBlock rules isDeclare
  node (.moduleDefinition "global" isDeclare) start [name, body]

/-- Reads a class that is declared under a name, from its decorators on. -/
def classDeclaration (rules : Rules) (start : Nat) (applied : Tree) (isDeclare : Bool) :
    Parser Tree := do
  let isAbstract ← if ← isTypeScript then acceptWord "abstract" else pure false
  classFrom rules (superclass rules) start applied false isDeclare isAbstract

/-- Whether a string follows the word `module` on the same line. -/
def precedesString : Parser Bool :=
  holds do
    word "module"
    let token ← peek
    match token.lexeme with
    | .string _ _ _ => return !token.newlineBefore
    | _ => return false

/-- Reads a type-level declaration, if one begins here. -/
def typeDeclaration? (rules : Rules) (start : Nat) (isDeclare : Bool) :
    Parser (Option Tree) := do
  if !(← isTypeScript) then return none
  match (← peek).lexeme with
  | .word "type" false =>
      if ← precedesName "type" then return some (← typeAlias rules start isDeclare)
      else return none
  | .word "interface" false =>
      if ← precedesName "interface" then return some (← interfaceDeclaration rules start isDeclare)
      else return none
  | .word "enum" false => return some (← enumDeclaration rules start isDeclare)
  | .word "const" false =>
      if ← holds (do word "const"; isWord "enum") then
        return some (← enumDeclaration rules start isDeclare)
      else return none
  | .word "namespace" false =>
      if ← precedesName "namespace" then
        return some (← namespaceDeclaration rules start "namespace" isDeclare)
      else return none
  | .word "module" false =>
      if ← precedesName "module" then
        return some (← namespaceDeclaration rules start "module" isDeclare)
      else if ← precedesString then return some (← quotedModule rules start isDeclare)
      else return none
  | .word "global" false =>
      if ← holds (do word "global"; isAt .openBrace) then
        return some (← globalDeclaration rules start isDeclare)
      else return none
  | .word "abstract" false =>
      let isClass ← holds do
        word "abstract"
        let token ← peek
        return token.lexeme == .word "class" false && !token.newlineBefore
      if isClass then return some (← classDeclaration rules start .absent isDeclare)
      else return none
  | _ => return none

/-- Whether `declare` begins a declaration here. -/
def isDeclare : Parser Bool := do
  if !((← isTypeScript) && (← isWord "declare")) then return false
  holds do
    word "declare"
    let token ← peek
    if token.newlineBefore then return false
    match token.lexeme with
    | .word text false =>
        return ["var", "let", "const", "function", "class", "async", "interface", "type", "enum",
          "namespace", "module", "global", "abstract"].contains text
    | _ => return false

/-- Reads a declaration of variables, a function, a class or a type, if one begins here. -/
def declarationFrom? (rules : Rules) (start : Nat) (isDeclare : Bool) :
    Parser (Option Tree) := do
  match ← typeDeclaration? rules start isDeclare with
  | some tree => return some tree
  | none =>
      match (← peek).lexeme with
      | .word "function" false => return some (← functionDeclaration rules start isDeclare)
      | .word "class" false => return some (← classDeclaration rules start .absent isDeclare)
      | _ =>
          if ← isAsyncFunction then return some (← functionDeclaration rules start isDeclare)
          else
            match ← variableWord? with
            | some word => return some (← variableStatement rules start word isDeclare)
            | none => return none

/-- Reads a declaration, perhaps after `declare`, if one begins here. -/
def declaration? (rules : Rules) : Parser (Option Tree) := do
  let start ← position
  if ← isDeclare then
    word "declare"
    within (fun c => { c with isAmbient := true }) (declarationFrom? rules start true)
  else declarationFrom? rules start false

end Concise.Grammar
