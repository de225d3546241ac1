import Concise.Grammar.Object

/-!
Classes. A member is a field, a method, an accessor, a static block, or in TypeScript an index
signature; stray semicolons between members are dropped. Words such as `static` or `private` modify
a member only if more of the member follows them; otherwise they are its name.
-/

namespace Concise.Grammar

open Concise.Parser

/-- Whether a token after a word ends the member's key, so that the word is the key itself. -/
def endsKey (token : Token) : Bool :=
  match token.lexeme with
  | .mark "(" | .mark "=" | .mark ";" | .mark ":" | .mark "?" | .mark "!" | .mark "<"
  | .mark "," => true
  | .closeBrace | .finish => true
  | _ => false

/-- Whether the next word modifies a class member; `sameLine` asks that the rest of the member
begins on its line. -/
def modifiesClassMember (text : String) (sameLine : Bool) : Parser Bool := do
  if ← isWord text then
    holds do
      let _ ← next
      let token ← peek
      return !endsKey token && !(sameLine && token.newlineBefore)
  else return false

/-- Reads the modifiers of a class member. -/
def memberModifiers : Parser Modifiers := do
  let isTypeScript ← isTypeScript
  loop (fun (modifiers : Modifiers) => do
    if ← modifiesClassMember "static" false then
      if ← holds (do word "static"; isAt .openBrace) then return .inr modifiers
      word "static"
      return .inl { modifiers with isStatic := true }
    else if ← modifiesClassMember "accessor" true then
      word "accessor"
      return .inl { modifiers with isAccessor := true }
    else if !isTypeScript then return .inr modifiers
    else if ← modifiesClassMember "public" true then
      word "public"
      return .inl { modifiers with accessibility := some "public" }
    else if ← modifiesClassMember "private" true then
      word "private"
      return .inl { modifiers with accessibility := some "private" }
    else if ← modifiesClassMember "protected" true then
      word "protected"
      return .inl { modifiers with accessibility := some "protected" }
    else if ← modifiesClassMember "abstract" true then
      word "abstract"
      return .inl { modifiers with isAbstract := true }
    else if ← modifiesClassMember "override" true then
      word "override"
      return .inl { modifiers with isOverride := true }
    else if ← modifiesClassMember "readonly" true then
      word "readonly"
      return .inl { modifiers with isReadonly := true }
    else if ← modifiesClassMember "declare" true then
      word "declare"
      return .inl { modifiers with isDeclare := true }
    else return .inr modifiers) {}

/-- The context of a field's value. -/
def Context.forField (c : Context) : Context :=
  { c with
    inAsync := false, inGenerator := false, inFunction := false, allowsIn := true
    inConsequent := false }

/-- Reads the word that makes a class member an accessor, if there is one. -/
def memberAccessor : Parser AccessorKind := do
  if ← modifiesClassMember "get" false then
    if ← holds (do word "get"; return beginsKey (← peek)) then
      word "get"
      return .get
    else return .init
  else if ← modifiesClassMember "set" false then
    if ← holds (do word "set"; return beginsKey (← peek)) then
      word "set"
      return .set
    else return .init
  else return .init

/-- Reads a field or a method after its modifiers. -/
def classMemberTail (rules : Rules) (start : Nat) (applied : Tree) (modifiers : Modifiers) :
    Parser Tree := do
  let isAsync ← modifiesClassMember "async" true
  if isAsync then word "async"
  let isGenerator ← acceptMark "*"
  let accessor ← if isAsync || isGenerator then pure .init else memberAccessor
  let (key, isComputed) ← memberKey rules
  let isOptional ← if ← isTypeScript then acceptMark "?" else pure false
  let isDefinite ← if ← isTypeScript then acceptMark "!" else pure false
  if isAsync || isGenerator || accessor != .init || (← isMark "(") || (← isMark "<") then
    let value ← method rules isAsync isGenerator
    require (accessorFits accessor value)
    node (.methodDefinition modifiers accessor isComputed isOptional) start [applied, key, value]
  else
    let type ← annotation? rules
    let value ← optional (← acceptMark "=") (within Context.forField (rules .assignment))
    semicolon
    node (.fieldDefinition modifiers isComputed isOptional isDefinite) start
      [applied, key, type, value]

/-- Reads a static block. -/
def staticBlock (rules : Rules) : Parser Tree := do
  let start ← position
  word "static"
  expect .openBrace
  let items ← within Context.forField (itemsUntil .closeBrace (rules .statement))
  node .staticBlock start items

/-- Reads a class member. -/
def classMember (rules : Rules) : Parser Tree := do
  let start ← position
  let applied ← decorators rules
  if ← holds (do word "static"; isAt .openBrace) then staticBlock rules
  else
    let modifiers ← memberModifiers
    if (← isTypeScript) && (← isIndexSignature) then
      let signature ← indexSignature rules start modifiers.isReadonly modifiers.isStatic
      memberEnd
      return signature
    else classMemberTail rules start applied modifiers

/-- Reads the members of a class, in braces. -/
def classBody (rules : Rules) : Parser Tree := do
  let start ← position
  expect .openBrace
  let members ← loop (fun members => do
    if ← accept .closeBrace then return .inr members.reverse
    else if ← acceptMark ";" then return .inl members
    else return .inl ((← classMember rules) :: members)) []
  node .group start members

/-- Reads a type name with its type arguments, as interfaces are listed. -/
def heritage (rules : Rules) : Parser Tree := do
  let start ← position
  let name ← typeName
  let types ← typeArguments? rules
  node .heritage start [name, types]

/-- The superclass and its type arguments, if type arguments were read as part of it. -/
def splitSuperclass : Tree → Tree × Tree
  | .node .instantiation _ [superclass, types] => (superclass, types)
  | superclass => (superclass, .absent)

/-- Reads what a class extends and its type arguments; `superclass` reads an expression. -/
def extended (rules : Rules) (superclass : Parser Tree) : Parser (Tree × Tree) := do
  if ← acceptWord "extends" then
    let (parent, types) := splitSuperclass (← superclass)
    if types.isPresent then return (parent, types)
    else if ← isTypeScript then return (parent, ← typeArguments? rules)
    else return (parent, .absent)
  else return (.absent, .absent)

/-- Reads the interfaces that a class implements. -/
def implemented (rules : Rules) : Parser Tree := do
  if ← isTypeScript <&&> acceptWord "implements" then
    let start ← position
    node .group start (← separatedBy "," (heritage rules))
  else return .absent

/-- Reads a class from the word `class` on; `superclass` reads what it extends. -/
def classFrom (rules : Rules) (superclass : Parser Tree) (start : Nat) (applied : Tree)
    (isExpression isDeclare isAbstract : Bool) : Parser Tree := do
  word "class"
  let isNamed ← holds do
    let name ← name
    if name.text == "implements" then return !(← isName) else return true
  let name ← optional isNamed binding
  let typeParameters ← typeParameters? rules
  let (parent, types) ← extended rules superclass
  let interfaces ← implemented rules
  let members ← within (fun c => { c with inConsequent := false }) (classBody rules)
  node (.classDefinition isExpression isDeclare isAbstract) start
    [applied, name, typeParameters, parent, types, interfaces, members]

end Concise.Grammar
