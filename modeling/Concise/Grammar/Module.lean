import Concise.Grammar.Declaration

/-!
Imports and exports.

The local names of an export without a source are references; with a source they are names of the
other module. The word `type` before a name marks it as a type unless it is the name itself.
-/

namespace Concise.Grammar

open Concise.Parser

/-! ### Names and attributes -/

/-- Reads a name in a clause: any word or a string. -/
def clauseName : Parser Tree := do
  match (← peek).lexeme with
  | .word _ _ => plainWord
  | _ => string

/-- Reads an attribute of an import. -/
def importAttribute : Parser Tree := do
  let start ← position
  let key ← clauseName
  mark ":"
  let value ← string
  node .importAttribute start [key, value]

/-- Reads the attributes of an import, if there are any. -/
def importAttributes? : Parser Tree := do
  let start ← position
  let token ← peek
  let keyword? :=
    match token.lexeme with
    | .word "with" false => some "with"
    | .word "assert" false => if token.newlineBefore then none else some "assert"
    | _ => none
  match keyword? with
  | some keyword =>
      skip token
      expect .openBrace
      let entries ← delimited .closeBrace importAttribute
      node (.importAttributes keyword) start entries
  | none => return .absent

/-- Reads the source of an import and its attributes. -/
def moduleSource : Parser (Tree × Tree) := do
  let source ← string
  return (source, ← importAttributes?)

/-- Whether the next word, `type`, marks what follows it in a clause as a type. -/
def marksType : Parser Bool := do
  if !(← isTypeScript) then return false
  holds do
    word "type"
    match (← peek).lexeme with
    | .word "as" false =>
        let _ ← next
        match (← peek).lexeme with
        | .word "as" false => do
            let _ ← next
            match (← peek).lexeme with
            | .word _ _ => return true
            | _ => return false
        | .word _ _ => return false
        | _ => return true
    | .word _ _ => return true
    | .string _ _ _ => return true
    | _ => return false

/-! ### Imports -/

/-- The name that a word binds. -/
def bindingOf? (context : Context) : Tree → Option Tree
  | .node (.word text) span [] =>
      if isNameIn context text then some (.node (.binding text) span []) else none
  | _ => none

/-- Reads a name in an import clause. -/
def importSpecifier : Parser Tree := do
  let start ← position
  let isType ← marksType
  if isType then word "type"
  let imported ← clauseName
  let own ←
    if ← acceptWord "as" then binding
    else
      match bindingOf? (← read) imported with
      | some tree => pure tree
      | none => failure
  node (.importName isType) start [imported, own]

/-- Reads a namespace import. -/
def importNamespace : Parser Tree := do
  let start ← position
  mark "*"
  word "as"
  let own ← binding
  node .importNamespace start [own]

/-- Reads the names in braces or the namespace of an import. -/
def importNames : Parser (List Tree) := do
  if ← isMark "*" then
    return [← importNamespace]
  else
    expect .openBrace
    delimited .closeBrace importSpecifier

/-- Reads an import from its clause on. -/
def importClause (start : Nat) (isType : Bool) (phase : Option String) : Parser Tree := do
  let inner ← position
  let items ←
    if ← isName then do
      let own ← binding
      let default ← node .importDefault inner [own]
      if ← acceptMark "," then
        pure (default :: (← importNames))
      else pure [default]
    else importNames
  let clause ← node .group inner items
  word "from"
  let (source, attributes) ← moduleSource
  semicolon
  node (.importFrom isType phase) start [clause, source, attributes]

/-- Reads what an imported alias stands for: a module or a dotted name. -/
def aliasTarget : Parser Tree := do
  let start ← position
  if ← holds (do word "require"; isMark "(") then
    word "require"
    mark "("
    let source ← string
    mark ")"
    node .externalModule start [source]
  else typeName

/-- Reads an alias of a module from its name on. -/
def importAlias (start : Nat) (isType : Bool) : Parser Tree := do
  let own ← binding
  mark "="
  let target ← aliasTarget
  semicolon
  node (.importEquals isType) start [own, target]

/-- Whether an alias of a module follows: a name and an equals sign. -/
def isAlias : Parser Bool := do
  if !(← isTypeScript) then return false
  holds do
    let _ ← name
    isMark "="

/-- Whether the next word modifies an import: a clause follows it. -/
def modifiesImport (text : String) : Parser Bool :=
  holds do
    word text
    match (← peek).lexeme with
    | .openBrace => return true
    | .mark "*" => return true
    | .word "from" false =>
        let _ ← next
        match (← peek).lexeme with
        | .word "from" false => return true
        | .mark "=" => return true
        | _ => return false
    | .word _ _ => isName
    | _ => return false

/-- Reads an import statement. -/
def importStatement : Parser Tree := do
  let start ← position
  word "import"
  match (← peek).lexeme with
  | .string _ _ _ =>
      let (source, attributes) ← moduleSource
      semicolon
      node (.importFrom false none) start [.absent, source, attributes]
  | _ =>
      if (← isTypeScript) && (← modifiesImport "type") then
        word "type"
        if ← isAlias then importAlias start true else importClause start true none
      else if ← isAlias then importAlias start false
      else if ← holds (do word "defer"; isMark "*") then
        word "defer"
        importClause start false (some "defer")
      else if ← holds (do word "source"; let _ ← name; isWord "from") then
        word "source"
        importClause start false (some "source")
      else importClause start false none

/-! ### Exports -/

/-- Reads a name in an export clause. -/
def exportSpecifier : Parser Tree := do
  let start ← position
  let isType ← marksType
  if isType then word "type"
  let own ← clauseName
  let exported ← if ← acceptWord "as" then clauseName else pure own
  node (.exportName isType) start [own, exported]

/-- The name in an export clause whose local part is a reference. -/
def ownSpecifier? (context : Context) : Tree → Option Tree
  | .node kind span [.node (.word text) place [], exported] =>
      if isNameIn context text then some (.node kind span [.reference place text, exported])
      else none
  | _ => none

/-- Reads the names of an export in braces, and its source if it has one. -/
def exportClause (start : Nat) (isType : Bool) : Parser Tree := do
  let inner ← position
  expect .openBrace
  let items ← delimited .closeBrace exportSpecifier
  let stop := (← get).offset
  if ← acceptWord "from" then
    let (source, attributes) ← moduleSource
    semicolon
    node (.exportNames isType) start [.node .group ⟨inner, stop⟩ items, source, attributes]
  else
    semicolon
    match items.mapM (ownSpecifier? (← read)) with
    | some items =>
        node (.exportNames isType) start [.node .group ⟨inner, stop⟩ items, .absent, .absent]
    | none => failure

/-- Reads an export of all names of a module. -/
def exportAll (start : Nat) (isType : Bool) : Parser Tree := do
  mark "*"
  let exported ← optional (← acceptWord "as") clauseName
  word "from"
  let (source, attributes) ← moduleSource
  semicolon
  node (.exportAll isType) start [exported, source, attributes]

/-- Reads a default export after `default`. -/
def exportDefault (rules : Rules) (start : Nat) (applied : Tree) : Parser Tree := do
  let inner ← position
  let token ← peek
  let isAbstract ←
    if ← isTypeScript then holds do
      word "abstract"
      let token ← peek
      return token.lexeme == .word "class" false && !token.newlineBefore
    else pure false
  let tree ←
    if token.lexeme == .mark "@" then do
      let applied ← decorators rules
      classDeclaration rules inner applied false
    else if token.lexeme == .word "class" false || isAbstract then
      classDeclaration rules (if applied.isPresent then applied.span.start else inner) applied false
    else if token.lexeme == .word "function" false || (← isAsyncFunction) then
      functionFrom rules .declaration false
    else if (← isTypeScript) && (← precedesName "interface") then
      interfaceDeclaration rules inner false
    else do
      let tree ← within (fun c => { c with allowsIn := true }) (rules .assignment)
      semicolon
      pure tree
  node .exportDefault start [tree]

/-- Reads an export statement; `applied` are decorators that stand before it. -/
def exportStatement (rules : Rules) (start : Nat) (applied : Tree) : Parser Tree := do
  word "export"
  let token ← peek
  let isTypeScript ← isTypeScript
  match token.lexeme with
  | .word "default" false => do
      skip token
      exportDefault rules start applied
  | .mark "*" => exportAll start false
  | .openBrace => exportClause start false
  | .mark "=" => do
      require isTypeScript
      skip token
      let tree ← fullExpression rules
      semicolon
      node .exportAssignment start [tree]
  | .mark "@" => do
      let inner ← position
      let applied ← decorators rules
      let tree ← classDeclaration rules inner applied false
      node .exportDeclaration start [tree]
  | _ =>
      if isTypeScript && (← holds (do word "as"; isWord "namespace")) then
        word "as"
        word "namespace"
        let name ← name
        semicolon
        node (.exportAsNamespace name.text) start []
      else if isTypeScript && (← holds (do word "type"; isAt .openBrace)) then
        word "type"
        exportClause start true
      else if isTypeScript && (← holds (do word "type"; isMark "*")) then
        word "type"
        exportAll start true
      else if isTypeScript && (← isWord "import") then
        let inner ← position
        word "import"
        let isType ← holds (do word "type"; isAlias)
        if isType then word "type"
        let tree ← importAlias inner isType
        node .exportDeclaration start [tree]
      else if applied.isPresent then
        let tree ← classDeclaration rules applied.span.start applied false
        node .exportDeclaration start [tree]
      else
        match ← declaration? rules with
        | some tree => node .exportDeclaration start [tree]
        | none => failure

end Concise.Grammar
