import Concise.Grammar.Template

/-!
TypeScript types. The entry points are `Grammar.type`, which reads any type, `typeArguments` and
`typeParameters` for the lists in angle brackets, `annotation` for a type after a colon, and
`typeMembers` for the bodies of type literals and interfaces.

A name at the head of a type name or of a `typeof` query is a reference; the names after its dots,
the labels of tuples and the parameters of function types are not.
-/

namespace Concise.Grammar

open Concise.Parser

/-! ### Lists in angle brackets -/

/-- Reads type arguments: types in angle brackets. -/
def typeArguments (rules : Rules) : Parser Tree := do
  let start ← position
  mark "<"
  let types ← delimited (.mark ">") (within (fun c => { c with noConditionalType := false })
    (rules .type))
  require (!types.isEmpty)
  node .typeArguments start types

/-- Reads type arguments if they follow on the same line. -/
def typeArguments? (rules : Rules) : Parser Tree := do
  let token ← peek
  optional (token.lexeme == .mark "<" && !token.newlineBefore) (typeArguments rules)

/-- Whether the next word modifies a type parameter: a name or another modifier follows. -/
def modifiesTypeParameter (text : String) : Parser Bool := do
  if ← isWord text then
    holds do
      let _ ← next
      match (← peek).lexeme with
      | .word "extends" _ => return false
      | .word _ _ => return true
      | _ => return false
  else return false

/-- Reads a type parameter with its constraint and default. -/
def typeParameter (rules : Rules) : Parser Tree := do
  let start ← position
  let isConst ← acceptWord "const"
  let isIn ← acceptWord "in"
  let isOut ← modifiesTypeParameter "out"
  if isOut then word "out"
  let name ← binding
  let bound ← optional (← acceptWord "extends") (rules .type)
  let default ← optional (← acceptMark "=") (rules .type)
  node (.typeParameter isConst isIn isOut) start [name, bound, default]

/-- Reads type parameters in angle brackets. -/
def typeParameters (rules : Rules) : Parser Tree := do
  let start ← position
  mark "<"
  let parameters ← delimited (.mark ">") (typeParameter rules)
  require (!parameters.isEmpty)
  node .typeParameters start parameters

/-- Reads type parameters if they follow. -/
def typeParameters? (rules : Rules) : Parser Tree := do
  optional ((← isTypeScript) && (← isMark "<")) (typeParameters rules)

/-- Reads a type after a colon, if there is one. -/
def annotation? (rules : Rules) : Parser Tree := do
  optional (← isTypeScript <&&> acceptMark ":")
    (within (fun c => { c with noConditionalType := false }) (rules .type))

/-! ### Names -/

/-- Reads a name and the names after its dots. -/
def typeName : Parser Tree := do
  let start ← position
  let token ← peek
  let head ←
    if token.lexeme == .word "this" false then do
      skip token
      pure (Tree.node .thisValue ⟨token.start, token.stop⟩ [])
    else reference
  loop (fun left => do
    if ← acceptMark "." then
      let right ← plainWord
      return .inl (← node .qualifiedName start [left, right])
    return .inr left) head

/-! ### Parameters of function types -/

/-- Reads the `this` parameter at the head of a parameter list, with the comma after it. -/
def thisParameter? (rules : Rules) : Parser Tree := do
  let start ← position
  if (← isTypeScript) && (← isWord "this") then
    word "this"
    let type ← annotation? rules
    let parameter ← node .thisParameter start [type]
    if !(← isMark ")") then mark ","
    return parameter
  else return .absent

/-- Reads a pattern, perhaps with a question mark and a type after it. -/
def typedPattern (rules : Rules) : Parser Tree := do
  let start ← position
  let pattern ← rules .pattern
  let isOptional ← if ← isTypeScript then acceptMark "?" else pure false
  let type ← annotation? rules
  if isOptional || type.isPresent then node (.typedPattern isOptional) start [pattern, type]
  else return pattern

/-- Reads a rest after its three dots. A comma may follow only where a declaration describes what
exists elsewhere. -/
def rest (start : Nat) (target : Parser Tree) : Parser Tree := do
  let bound ← target
  require ((← read).isAmbient || !(← isMark ","))
  node .restPattern start [bound]

/-- Whether a rest stands only at the end. -/
def restComesLast (patterns : List Tree) : Bool := !patterns.dropLast.any Tree.isRest

/-- Reads a parameter of a function type. -/
def typeLevelParameter (rules : Rules) : Parser Tree := do
  let start ← position
  if ← acceptMark "..." then rest start (typedPattern rules)
  else
    let pattern ← typedPattern rules
    node (.parameter {}) start [.absent, pattern]

/-- Reads the parameters of a function type: the `this` parameter and the others. -/
def typeLevelParameters (rules : Rules) : Parser (Tree × Tree) := do
  let start ← position
  mark "("
  let this ← thisParameter? rules
  let parameters ← delimited (.mark ")") (typeLevelParameter rules)
  require (restComesLast parameters)
  return (this, ← node .parameters start parameters)

/-- Reads a type predicate such as `x is T` or `asserts x`, or any type. -/
def returnedType (rules : Rules) : Parser Tree := do
  let start ← position
  let asserts ← holds do
    word "asserts"
    let token ← peek
    match token.lexeme with
    | .word text _ => return !token.newlineBefore && text != "is"
    | _ => return false
  if asserts then
    word "asserts"
    let subject ← plainWord
    let type ← optional (← acceptWord "is") (rules .type)
    node (.typePredicate true) start [subject, type]
  else
    let predicate ← holds do
      let _ ← anyWord
      let token ← peek
      return token.lexeme == .word "is" false && !token.newlineBefore
    if predicate then
      let subject ← plainWord
      word "is"
      let type ← rules .type
      node (.typePredicate false) start [subject, type]
    else rules .type

/-- Reads a return type after a colon, if there is one. -/
def returnType? (rules : Rules) : Parser Tree := do
  optional (← isTypeScript <&&> acceptMark ":")
    (within (fun c => { c with noConditionalType := false }) (returnedType rules))

/-! ### Members of type literals -/

/-- The key of a member: a name, a literal, or an expression in brackets. -/
def memberKey (rules : Rules) : Parser (Tree × Bool) := do
  let token ← peek
  let span : Span := ⟨token.start, token.stop⟩
  match token.lexeme with
  | .word text _ =>
      skip token
      return (.node (.staticName text) span [], false)
  | .privateWord text =>
      skip token
      return (.node (.privateName text) span [], false)
  | .string value _ hasLone =>
      skip token
      return (.node (.string value hasLone) span [], false)
  | .number raw =>
      skip token
      return (.node (.number raw) span [], false)
  | .bigInteger raw =>
      skip token
      return (.node (.bigInteger raw) span [], false)
  | .mark "[" =>
      skip token
      let key ← within (fun c => { c with allowsIn := true }) (rules .assignment)
      mark "]"
      return (key, true)
  | _ => failure

/-- Ends a member of a type literal. -/
def memberEnd : Parser Unit := do
  if !(← acceptMark ";" <||> acceptMark ",") then
    let token ← peek
    require (token.lexeme == .closeBrace || token.newlineBefore)

/-- Whether an index signature follows: a name and a colon in brackets. -/
def isIndexSignature : Parser Bool :=
  holds do
    mark "["
    let _ ← name
    isMark ":"

/-- Reads an index signature without its end. -/
def indexSignature (rules : Rules) (start : Nat) (isReadonly isStatic : Bool) : Parser Tree := do
  mark "["
  let name ← binding
  mark ":"
  let index ← rules .type
  mark "]"
  let type ← annotation? rules
  node (.indexSignature isReadonly isStatic) start [name, index, type]

/-- Whether the next word is a modifier of a member: a key follows it. -/
def modifiesMember (text : String) : Parser Bool := do
  if ← isWord text then
    holds do
      let _ ← next
      match (← peek).lexeme with
      | .word _ _ | .string _ _ _ | .number _ | .bigInteger _ | .privateWord _ => return true
      | .mark "[" => return true
      | _ => return false
  else return false

/-- Reads the parameters and the return type of a signature. -/
def signature (rules : Rules) : Parser (List Tree) := do
  let typeParameters ← typeParameters? rules
  let (this, parameters) ← typeLevelParameters rules
  let returned ← returnType? rules
  return [typeParameters, this, parameters, returned]

/-- Reads a property or method signature after its modifiers. -/
def namedSignature (rules : Rules) (start : Nat) (accessor : AccessorKind) (isReadonly : Bool) :
    Parser Tree := do
  let (key, isComputed) ← memberKey rules
  let isOptional ← acceptMark "?"
  if accessor != .init || (← isMark "(") || (← isMark "<") then
    let parts ← signature rules
    node (.methodSignature accessor isOptional isComputed) start (key :: parts)
  else
    let type ← annotation? rules
    node (.propertySignature isReadonly isOptional isComputed) start [key, type]

/-- Reads a member of a type literal. -/
def typeMember (rules : Rules) : Parser Tree := do
  let start ← position
  let member ←
    if (← isMark "(") || (← isMark "<") then do
      node .callSignature start (← signature rules)
    else if ← holds (do word "new"; return (← isMark "(") || (← isMark "<")) then do
      word "new"
      match ← signature rules with
      | [typeParameters, this, parameters, returned] =>
          require (!this.isPresent)
          node .constructSignature start [typeParameters, parameters, returned]
      | _ => failure
    else do
      let isReadonly ← modifiesMember "readonly"
      if isReadonly then word "readonly"
      if ← isIndexSignature then indexSignature rules start isReadonly false
      else if ← modifiesMember "get" then do
        word "get"
        namedSignature rules start .get isReadonly
      else if ← modifiesMember "set" then do
        word "set"
        namedSignature rules start .set isReadonly
      else namedSignature rules start .init isReadonly
  memberEnd
  return member

/-- Reads the members of a type literal or an interface, in braces. -/
def typeMembers (rules : Rules) : Parser (List Tree) := do
  expect .openBrace
  within (fun c => { c with noConditionalType := false })
    (itemsUntil .closeBrace (typeMember rules))

/-! ### Primary types -/

/-- The names of the types that are built in. -/
def keywordTypes : List String :=
  ["any", "unknown", "never", "void", "null", "undefined", "string", "number", "boolean", "symbol",
   "bigint", "object", "intrinsic"]

/-- Reads the sign after `+` or `-` of a mapped type's modifier. -/
def mappedModifier (modifier : Parser Bool) : Parser MappedModifier := do
  if ← acceptMark "+" then
    require (← modifier)
    return .plus
  else if ← acceptMark "-" then
    require (← modifier)
    return .minus
  else if ← modifier then return .set
  else return .keep

/-- Reads a mapped type. -/
def mappedType (rules : Rules) : Parser Tree := do
  let start ← position
  expect .openBrace
  let readonlyModifier ← mappedModifier (acceptWord "readonly")
  mark "["
  let name ← binding
  word "in"
  let constraint ← rules .type
  let nameType ← optional (← acceptWord "as") (rules .type)
  mark "]"
  let optionalModifier ← mappedModifier (acceptMark "?")
  let type ← annotation? rules
  let _ ← acceptMark ";"
  expect .closeBrace
  node (.mappedType readonlyModifier optionalModifier) start [name, constraint, nameType, type]

/-- Reads an element of a tuple type. -/
def tupleElement (rules : Rules) : Parser Tree := do
  let start ← position
  let isRest ← acceptMark "..."
  let isNamed ← holds do
    let _ ← anyWord
    let _ ← acceptMark "?"
    isMark ":"
  let inner ← position
  let element ←
    if isNamed then do
      let label ← plainWord
      let isOptional ← acceptMark "?"
      mark ":"
      let type ← rules .type
      node (.namedTupleMember isOptional) inner [label, type]
    else do
      let type ← rules .type
      if ← acceptMark "?" then node .optionalType inner [type] else pure type
  if isRest then node .restType start [element] else return element

/-- Reads an import type such as `import('m').T`. -/
def importType (rules : Rules) : Parser Tree := do
  let start ← position
  word "import"
  mark "("
  let argument ← rules .type
  let options ← optional (← acceptMark ",") do
    if ← isMark ")" then return .absent else rules .assignment
  let _ ← acceptMark ","
  mark ")"
  let qualifier ← optional (← acceptMark ".") do
    let start ← position
    let head ← plainWord
    loop (fun left => do
      if ← acceptMark "." then
        let right ← plainWord
        return .inl (← node .qualifiedName start [left, right])
      return .inr left) head
  let arguments ← typeArguments? rules
  node .importType start [argument, options, qualifier, arguments]

/-- Reads a type without operators. -/
def primaryType (rules : Rules) : Parser Tree := do
  let token ← peek
  let start := token.start
  let span : Span := ⟨token.start, token.stop⟩
  let literal (kind : Kind) : Parser Tree := do
    skip token
    node .literalType start [.node kind span []]
  match token.lexeme with
  | .string value _ hasLone => literal (.string value hasLone)
  | .number raw => literal (.number raw)
  | .bigInteger raw => literal (.bigInteger raw)
  | .mark "-" =>
      skip token
      let number ← next
      let kind ←
        match number.lexeme with
        | .number raw => pure (Kind.number raw)
        | .bigInteger raw => pure (Kind.bigInteger raw)
        | _ => failure
      let operand := Tree.node kind ⟨number.start, number.stop⟩ []
      node .literalType start [← node (.unary "-") start [operand]]
  | .mark "`" =>
      skip token
      let (raws, types) ← templatePieces (rules .type) false
      node (.templateType raws) start types
  | .mark "(" =>
      skip token
      let type ← within (fun c => { c with noConditionalType := false }) (rules .type)
      mark ")"
      node .parenthesizedType start [type]
  | .mark "[" =>
      skip token
      let elements ← within (fun c => { c with noConditionalType := false })
        (delimited (.mark "]") (tupleElement rules))
      node .tupleType start elements
  | .openBrace =>
      let isMapped ← holds do
        skip token
        if ← acceptMark "+" <||> acceptMark "-" then return (← isWord "readonly")
        if ← modifiesMember "readonly" then word "readonly"
        mark "["
        let _ ← name
        isWord "in"
      if isMapped then within (fun c => { c with noConditionalType := false }) (mappedType rules)
      else node .typeLiteral start (← typeMembers rules)
  | .word "this" _ =>
      skip token
      return .node .thisType span []
  | .word "true" _ => literal (.boolean true)
  | .word "false" _ => literal (.boolean false)
  | .word "import" _ => importType rules
  | .word "typeof" _ =>
      skip token
      let subject ← if ← isWord "import" then importType rules else typeName
      let arguments ← typeArguments? rules
      node .typeQuery start [subject, arguments]
  | .word text isEscaped =>
      if text == "void" || text == "null" then do
        skip token
        return .node (.keywordType text) span []
      let isQualified ← holds do
        skip token
        isMark "."
      if keywordTypes.contains text && !isEscaped && !isQualified then do
        skip token
        return .node (.keywordType text) span []
      else do
        let name ← typeName
        let arguments ← typeArguments? rules
        node .typeReference start [name, arguments]
  | _ => failure

/-- Reads a type with the brackets after it. -/
def postfixType (rules : Rules) : Parser Tree := do
  let start ← position
  let head ← primaryType rules
  loop (fun type => do
    let token ← peek
    if token.lexeme == .mark "[" && !token.newlineBefore then
      skip token
      if ← acceptMark "]" then
        return .inl (← node .arrayType start [type])
      let index ← rules .type
      mark "]"
      return .inl (← node .indexedAccessType start [type, index])
    return .inr type) head

/-- Whether the next word is a type operator: a type follows it. -/
def isTypeOperator (text : String) : Parser Bool := do
  if ← isWord text then
    holds do
      let _ ← next
      match (← peek).lexeme with
      | .word "extends" _ | .word "is" _ => return false
      | .word _ _ | .string _ _ _ | .number _ => return true
      | .openBrace | .mark "(" | .mark "[" => return true
      | _ => return false
  else return false

/-- Reads the variable of an `infer` type, with a bound where it cannot belong to a conditional
type. -/
def inferType (rules : Rules) (start : Nat) : Parser Tree := do
  let inner ← position
  let name ← binding
  let context ← read
  let bound ← attempt do
    word "extends"
    let type ← within (fun c => { c with noConditionalType := true }) (rules .type)
    require (context.noConditionalType || !(← isMark "?"))
    return type
  let parameter ← node (.typeParameter false false false) inner [name, bound.getD .absent, .absent]
  node .inferType start [parameter]

/-- Reads a type with the operators before it; the fuel bounds their number. -/
def operatorType (rules : Rules) : Parser Tree := do
  let (operators, type) ← loop (fun operators => do
    let start ← position
    if ← isTypeOperator "keyof" then
      word "keyof"
      return .inl ((start, "keyof") :: operators)
    else if ← isTypeOperator "unique" then
      word "unique"
      return .inl ((start, "unique") :: operators)
    else if ← isTypeOperator "readonly" then
      word "readonly"
      return .inl ((start, "readonly") :: operators)
    else if ← isTypeOperator "infer" then
      word "infer"
      return .inr (operators, ← inferType rules start)
    else return .inr (operators, ← postfixType rules)) ([] : List (Nat × String))
  operators.foldlM (fun type (start, operator) => node (.operatorType operator) start [type]) type

/-- Reads types parted by an operator, which may also stand before the first. -/
def operatorChain (symbol : String) (kind : Kind) (operand : Parser Tree) : Parser Tree := do
  let start ← position
  let leads ← acceptMark symbol
  match ← separatedBy symbol operand with
  | [type] => if leads then node kind start [type] else return type
  | types => node kind start types

/-- Whether a function type follows, which begins with a parameter list and an arrow. -/
def isFunctionType (rules : Rules) : Parser Bool :=
  holds do
    let _ ← typeLevelParameters rules
    isMark "=>"

/-- Reads a function type. -/
def functionType (rules : Rules) : Parser Tree := do
  let start ← position
  let typeParameters ← typeParameters? rules
  let (this, parameters) ← typeLevelParameters rules
  mark "=>"
  let returned ← returnedType rules
  node .functionType start [typeParameters, this, parameters, returned]

/-- Reads a constructor type. -/
def constructorType (rules : Rules) : Parser Tree := do
  let start ← position
  let isAbstract ← acceptWord "abstract"
  word "new"
  let typeParameters ← typeParameters? rules
  let (this, parameters) ← typeLevelParameters rules
  require (!this.isPresent)
  mark "=>"
  let returned ← returnedType rules
  node (.constructorType isAbstract) start [typeParameters, parameters, returned]

/-- Reads a type. -/
def type (rules : Rules) : Parser Tree := do
  let start ← position
  let isConstructor ← holds do
    let _ ← acceptWord "abstract"
    isWord "new"
  if isConstructor then constructorType rules
  else if (← isMark "<") || ((← isMark "(") && (← isFunctionType rules)) then functionType rules
  else
    let checked ←
      operatorChain "|" .unionType (operatorChain "&" .intersectionType (operatorType rules))
    let token ← peek
    if token.lexeme == .word "extends" false && !token.newlineBefore &&
        !(← read).noConditionalType then
      skip token
      let bound ← within (fun c => { c with noConditionalType := true }) (rules .type)
      mark "?"
      let positive ← rules .type
      mark ":"
      let negative ← rules .type
      node .conditionalType start [checked, bound, positive, negative]
    else return checked

end Concise.Grammar
