import Concise.Grammar.Type

/-!
Patterns. Binding patterns declare names and are read as such; assignment targets and the parameters
of arrow functions are first read as expressions, because only what follows them tells that they are
patterns, and are converted then.

* `Tree.toTarget?` turns an expression into what may stand left of `=`.
* `Tree.toBinding?` turns a target into the pattern that declares the same names.
* `Tree.isSimpleTarget` says what compound assignments and `++` accept.
-/

namespace Concise

namespace Tree

/-- Whether an expression is a name or a member, perhaps in parentheses or under a type operator. -/
def isSimpleTarget : Tree → Bool
  | reference _ _ => true
  | node kind _ parts =>
      match kind, parts with
      | .member isOptional, _ => !isOptional
      | .computedMember isOptional, _ => !isOptional
      | .parenthesized, [inner] => inner.isSimpleTarget
      | .nonNull, [inner] => inner.isSimpleTarget
      | .asType, [inner, _] => inner.isSimpleTarget
      | .satisfiesType, [inner, _] => inner.isSimpleTarget
      | .typeAssertion, [_, inner] => inner.isSimpleTarget
      | _, _ => false
  | _ => false

mutual

/-- The assignment target that an expression spells. -/
def toTarget? : Tree → Option Tree
  | node .object span parts => (toTargetMembers? parts).map (.node .objectTarget span)
  | node .array span parts => (toTargetElements? parts).map (.node .arrayTarget span)
  | tree => if tree.isSimpleTarget then some tree else none

/-- The members of an object target; a spread becomes a rest, and nothing may follow it. -/
def toTargetMembers? : List Tree → Option (List Tree)
  | [] => some []
  | property span form key value :: members => do
      let rest ← toTargetMembers? members
      if form.isMethod || form.accessor != .init then none
      else if form.isShorthand then return .node .targetShorthand span [value, .absent] :: rest
      else
        let target ← value.toTargetWithDefault?
        return .node (.targetProperty form.isComputed) span [key, target] :: rest
  | node .coverInitialized span [name, initial] :: members => do
      return .node .targetShorthand span [name, initial] :: (← toTargetMembers? members)
  | [node (.spread false) span [argument]] => do
      return [.node .restTarget span [← argument.toTarget?]]
  | _ => none

/-- The elements of an array target; a spread becomes a rest, and nothing may follow it. -/
def toTargetElements? : List Tree → Option (List Tree)
  | [] => some []
  | node .hole span _ :: elements => do
      return .node .hole span [] :: (← toTargetElements? elements)
  | [node (.spread false) span [argument]] => do
      return [.node .restTarget span [← argument.toTarget?]]
  | element :: elements => do
      return (← element.toTargetWithDefault?) :: (← toTargetElements? elements)

/-- The target that an expression spells, where an assignment gives the target a default. -/
def toTargetWithDefault? : Tree → Option Tree
  | node (.assignment "=") span [target, initial] =>
      some (.node .defaultTarget span [target, initial])
  | node .object span parts => (toTargetMembers? parts).map (.node .objectTarget span)
  | node .array span parts => (toTargetElements? parts).map (.node .arrayTarget span)
  | tree => if tree.isSimpleTarget then some tree else none

end

mutual

/-- The binding pattern that declares the names of an assignment target. -/
def toBinding? : Tree → Option Tree
  | reference span name => some (.node (.binding name) span [])
  | node .objectTarget span parts => (toBindings? parts).map (.node .objectPattern span)
  | node .arrayTarget span parts => (toBindings? parts).map (.node .arrayPattern span)
  | node .hole span _ => some (.node .hole span [])
  | node .restTarget span [target] => do return .node .restPattern span [← target.toBinding?]
  | node .defaultTarget span [target, initial] => do
      return .node .defaultPattern span [← target.toBinding?, initial]
  | node .targetShorthand span [reference inner name, initial] =>
      let key := Tree.node (.staticName name) inner []
      let bound := Tree.node (.binding name) inner []
      if initial.isPresent then
        some (.node (.patternProperty true false) span
          [key, .node .defaultPattern span [bound, initial]])
      else some (.node (.patternProperty true false) span [key, bound])
  | node (.targetProperty isComputed) span [key, target] => do
      return .node (.patternProperty false isComputed) span [key, ← target.toBinding?]
  | _ => none

/-- The binding patterns of targets. -/
def toBindings? : List Tree → Option (List Tree)
  | [] => some []
  | target :: targets => do return (← target.toBinding?) :: (← toBindings? targets)

end

/-- The parameter that an item of an arrow function's head spells. -/
def toParameter? (item : Tree) : Option Tree :=
  match item with
  | node (.assignment "=") span [target, initial] => do
      return .node (.parameter {}) span
        [.absent, .node .defaultPattern span [← target.toBinding?, initial]]
  | node (.spread false) span [argument] => do
      return .node .restPattern span [← (← argument.toTarget?).toBinding?]
  | _ => do return .node (.parameter {}) item.span [.absent, ← (← item.toTarget?).toBinding?]

/-- The parameters that the items of an arrow function's head spell; a rest comes last. -/
def toParameters? (span : Span) (items : List Tree) : Option Tree := do
  let parameters ← items.mapM toParameter?
  if parameters.dropLast.any isRest then none else return .node .parameters span parameters

end Tree

namespace Grammar

open Concise.Parser

/-- Reads an initialiser after `=`, with `in` allowed. -/
def initializer (rules : Rules) : Parser Tree :=
  within (fun c => { c with allowsIn := true }) (rules .assignment)

/-- Reads a pattern and its initialiser, if there is one. -/
def withDefault (rules : Rules) (pattern : Parser Tree) : Parser Tree := do
  let start ← position
  let bound ← pattern
  if ← acceptMark "=" then
    let initial ← initializer rules
    node .defaultPattern start [bound, initial]
  else return bound

/-- Reads a property of an object pattern that consists of a name, perhaps with an initialiser. -/
def shorthandPattern (rules : Rules) (start : Nat) : Parser Tree := do
  let name ← name
  let bound := Tree.node (.binding name.text) name.span []
  let key := Tree.node (.staticName name.text) name.span []
  if ← acceptMark "=" then
    let initial ← initializer rules
    let value ← node .defaultPattern start [bound, initial]
    node (.patternProperty true false) start [key, value]
  else node (.patternProperty true false) start [key, bound]

/-- Reads a property of an object pattern. -/
def patternProperty (rules : Rules) : Parser Tree := do
  let start ← position
  if ← acceptMark "..." then rest start (rules .pattern)
  else
    let isShorthand ← holds do
      let _ ← name
      return !(← isMark ":")
    if isShorthand then shorthandPattern rules start
    else
      let (key, isComputed) ← memberKey rules
      mark ":"
      let value ← withDefault rules (rules .pattern)
      node (.patternProperty false isComputed) start [key, value]

/-- Reads an element of an array pattern: a comma alone is a hole. -/
def patternElement (rules : Rules) : Parser Tree := do
  let start ← position
  if ← isMark "," then node .hole start []
  else if ← acceptMark "..." then rest start (rules .pattern)
  else withDefault rules (rules .pattern)

/-- Reads a binding pattern. -/
def pattern (rules : Rules) : Parser Tree := do
  let start ← position
  if ← accept .openBrace then
    let properties ← delimited .closeBrace (patternProperty rules)
    require (restComesLast properties)
    node .objectPattern start properties
  else if ← acceptMark "[" then
    let elements ← delimited (.mark "]") (patternElement rules)
    require (restComesLast elements)
    node .arrayPattern start elements
  else binding

end Grammar

end Concise
