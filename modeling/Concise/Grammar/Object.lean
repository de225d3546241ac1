import Concise.Grammar.Function

/-!
Object literals. A member is a spread or a property; a property is written in one of these ways:

* `key: value`;
* a name alone, which is the key and refers to the value;
* a method `key() {}`, perhaps after `async`, `*` or both;
* an accessor, after `get` or `set`.

A name with an initialiser is read as well: whether it is legal shows only when the literal turns
out to be a pattern.
-/

namespace Concise.Grammar

open Concise.Parser

/-- Whether a token begins a key. -/
def beginsKey (token : Token) : Bool :=
  match token.lexeme with
  | .word _ _ | .string _ _ _ | .number _ | .bigInteger _ | .privateWord _ => true
  | .mark "[" => true
  | _ => false

/-- Whether the next word modifies the property that follows on it. -/
def modifiesProperty (text : String) : Parser Bool := do
  if ← isWord text then
    holds do
      let _ ← next
      return beginsKey (← peek)
  else return false

/-- Whether the next word is `async` before a method. -/
def isAsyncMethod : Parser Bool := do
  if ← isWord "async" then
    holds do
      let _ ← next
      let token ← peek
      return !token.newlineBefore && (beginsKey token || token.lexeme == .mark "*")
  else return false

/-- Reads an accessor. -/
def accessorProperty (rules : Rules) (start : Nat) (accessor : AccessorKind) : Parser Tree := do
  let _ ← next
  let (key, isComputed) ← memberKey rules
  let value ← method rules false false
  require (accessorFits accessor value)
  return .property (← spanFrom start) { accessor, isComputed } key value

/-- Reads a method after its modifiers. -/
def methodProperty (rules : Rules) (start : Nat) (isAsync isGenerator : Bool) : Parser Tree := do
  let (key, isComputed) ← memberKey rules
  let value ← method rules isAsync isGenerator
  return .property (← spanFrom start) { isMethod := true, isComputed } key value

/-- Reads a property that consists of a name, perhaps with an initialiser. -/
def shorthandProperty (rules : Rules) (start : Nat) (name : Name) : Parser Tree := do
  let value := Tree.reference name.span name.text
  if ← acceptMark "=" then
    let initial ← initializer rules
    node .coverInitialized start [value, initial]
  else
    let key := Tree.node (.staticName name.text) name.span []
    return .property (← spanFrom start) { isShorthand := true } key value

/-- Reads a property without modifiers. -/
def plainProperty (rules : Rules) (start : Nat) : Parser Tree := do
  let token ← peek
  let (key, isComputed) ← memberKey rules
  if ← acceptMark ":" then
    let value ← initializer rules
    return .property (← spanFrom start) { isComputed } key value
  else if (← isMark "(") || ((← isTypeScript) && (← isMark "<")) then
    let value ← method rules false false
    return .property (← spanFrom start) { isMethod := true, isComputed } key value
  else
    match nameOf (← read) token with
    | some text => shorthandProperty rules start ⟨text, ⟨token.start, token.stop⟩⟩
    | none => failure

/-- Reads a member of an object literal. -/
def objectMember (rules : Rules) : Parser Tree := do
  let start ← position
  if ← acceptMark "..." then
    let argument ← initializer rules
    node (.spread (← isMark ",")) start [argument]
  else if ← acceptMark "*" then methodProperty rules start false true
  else if ← isAsyncMethod then do
    word "async"
    let isGenerator ← acceptMark "*"
    methodProperty rules start true isGenerator
  else if ← modifiesProperty "get" then accessorProperty rules start .get
  else if ← modifiesProperty "set" then accessorProperty rules start .set
  else plainProperty rules start

/-- Reads an object literal. -/
def objectLiteral (rules : Rules) : Parser Tree := do
  let start ← position
  expect .openBrace
  let members ← within (fun c => { c with inConsequent := false })
    (delimited .closeBrace (objectMember rules))
  node .object start members

/-- Reads an array literal. -/
def arrayLiteral (rules : Rules) : Parser Tree := do
  let start ← position
  mark "["
  let elements ← within (fun c => { c with allowsIn := true, inConsequent := false })
    (delimited (.mark "]") (do
      let start ← position
      if ← isMark "," then node .hole start [] else spreadable rules))
  node .array start elements

end Concise.Grammar
