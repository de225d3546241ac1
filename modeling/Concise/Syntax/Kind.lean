/-!
The kinds of syntax nodes. Identifier references, object properties and functions have constructors
of their own in `Concise.Tree`; every other construct of JavaScript, TypeScript and JSX is a node
that carries one of the kinds below and its parts in document order.

A kind holds what is not itself a node: spellings, operators and modifiers. The doc comment of each
kind lists the parts of its nodes. A part that the source leaves out is a node of kind `absent`,
so a kind fixes the positions of its parts; a run of parts without a fixed number is a `group`.
-/

namespace Concise

/-- The keyword that begins a variable declaration. -/
inductive VariableWord where
  | varWord
  | letWord
  | constWord
  | usingWord
  | awaitUsingWord
deriving DecidableEq, Inhabited

/-- The spelling of the keyword. -/
def VariableWord.text : VariableWord → String
  | .varWord => "var"
  | .letWord => "let"
  | .constWord => "const"
  | .usingWord => "using"
  | .awaitUsingWord => "await using"

/-- Whether the variables are disposed of at the end of their scope. -/
def VariableWord.disposes : VariableWord → Bool
  | .usingWord | .awaitUsingWord => true
  | _ => false

/-- Whether an object property or class member is an accessor, and which. -/
inductive AccessorKind where
  | init
  | get
  | set
deriving DecidableEq, Inhabited

/-- The modifiers that may stand before a class member or a constructor parameter. -/
structure Modifiers where
  accessibility : Option String := none
  isDeclare : Bool := false
  isAbstract : Bool := false
  isStatic : Bool := false
  isOverride : Bool := false
  isReadonly : Bool := false
  isAccessor : Bool := false
deriving DecidableEq, Inhabited

/-- How a mapped type changes a modifier of its members. -/
inductive MappedModifier where
  | keep
  | set
  | plus
  | minus
deriving DecidableEq, Inhabited

/-- The kinds of syntax nodes. -/
inductive Kind where
  /-- A part that is left out: no parts. -/
  | absent
  /-- A run of parts. -/
  | group
  /-- An identifier that names something bound elsewhere: no parts. -/
  | word (name : String)
  /-- The bare name of a property: no parts. -/
  | staticName (name : String)
  /-- A name of a private member: no parts. -/
  | privateName (name : String)
  /-- An identifier that is declared here: no parts. -/
  | binding (name : String)
  -- Literals and other expressions without parts.
  | thisValue
  | superValue
  | nullValue
  | boolean (value : Bool)
  /-- A number, by its spelling. -/
  | number (raw : String)
  /-- A big integer, by its spelling. -/
  | bigInteger (raw : String)
  /-- A string, by its value; `hasLone` says that the value holds lone surrogates in the form
  U+FFFD and four hexadecimal digits. -/
  | string (value : String) (hasLone : Bool)
  | regularExpression (pattern flags : String)
  /-- `new.target` and `import.meta`. -/
  | metaProperty (object property : String)
  -- Expressions with parts.
  /-- A template by the raw texts around its expressions: expressions. -/
  | template (raws : List String)
  /-- Tag, type arguments, template. -/
  | taggedTemplate
  /-- Members: properties and spreads. -/
  | object
  /-- A shorthand property with an initialiser, legal only where a pattern follows: reference,
  initialiser. -/
  | coverInitialized
  /-- Elements, holes and spreads. -/
  | array
  /-- A hole in an array: no parts. -/
  | hole
  /-- A spread, and whether a comma follows it, which rules out that it is a rest: argument. -/
  | spread (isFollowed : Bool)
  /-- Expressions. -/
  | sequence
  /-- Expression. -/
  | parenthesized
  /-- Operand. -/
  | unary (operator : String)
  /-- Operand. -/
  | update (operator : String) (isPrefixed : Bool)
  /-- Left operand, right operand. -/
  | binary (operator : String)
  /-- Left operand, right operand. -/
  | logical (operator : String)
  /-- Test, consequent, alternate. -/
  | conditional
  /-- Target, value. -/
  | assignment (operator : String)
  /-- Object, name. -/
  | member (isOptional : Bool)
  /-- Object, expression. -/
  | computedMember (isOptional : Bool)
  /-- Callee, type arguments, arguments. -/
  | call (isOptional : Bool)
  /-- Callee, type arguments, arguments. -/
  | construct
  /-- An optional chain: expression. -/
  | chain
  /-- Argument. -/
  | yieldValue (isDelegate : Bool)
  /-- Argument. -/
  | awaitValue
  /-- Source, options. -/
  | importCall (phase : Option String)
  /-- Type parameters, parameters, return type, body. -/
  | arrow (isAsync isExpression wasParenthesized : Bool)
  /-- Decorators, name, type parameters, superclass, its type arguments, interfaces, members. -/
  | classDefinition (isExpression isDeclare isAbstract : Bool)
  /-- Expression, type. -/
  | asType
  /-- Expression, type. -/
  | satisfiesType
  /-- Type, expression. -/
  | typeAssertion
  /-- Expression. -/
  | nonNull
  /-- Expression, type arguments. -/
  | instantiation
  -- Binding patterns and parameters.
  /-- Pattern, type. -/
  | typedPattern (isOptional : Bool)
  /-- Pattern properties, then perhaps a rest. -/
  | objectPattern
  /-- Key, pattern. -/
  | patternProperty (isShorthand isComputed : Bool)
  /-- Patterns and holes, then perhaps a rest. -/
  | arrayPattern
  /-- Pattern, initialiser. -/
  | defaultPattern
  /-- Pattern. -/
  | restPattern
  /-- Parameters, then perhaps a rest. -/
  | parameters
  /-- Decorators, pattern. -/
  | parameter (modifiers : Modifiers)
  /-- Type. -/
  | thisParameter
  -- Assignment targets.
  /-- Target properties, then perhaps a rest. -/
  | objectTarget
  /-- Reference, initialiser. -/
  | targetShorthand
  /-- Key, target. -/
  | targetProperty (isComputed : Bool)
  /-- Targets and holes, then perhaps a rest. -/
  | arrayTarget
  /-- Target, initialiser. -/
  | defaultTarget
  /-- Target. -/
  | restTarget
  -- Classes.
  /-- Decorators, key, method. -/
  | methodDefinition (modifiers : Modifiers) (accessor : AccessorKind)
      (isComputed isOptional : Bool)
  /-- Decorators, key, type, value. -/
  | fieldDefinition (modifiers : Modifiers) (isComputed isOptional isDefinite : Bool)
  /-- Statements. -/
  | staticBlock
  /-- Expression. -/
  | decorator
  -- Statements.
  /-- Directives and statements. -/
  | program (hashbang : Option String)
  /-- A directive by the text between its quotes: no parts. -/
  | directive (raw : String)
  /-- Directives and statements. -/
  | functionBody
  /-- Statements. -/
  | block
  | emptyStatement
  /-- Expression. -/
  | expressionStatement
  /-- Declarators. -/
  | declarations (word : VariableWord) (isDeclare : Bool)
  /-- Pattern, initialiser. -/
  | declarator (isDefinite : Bool)
  /-- Test, consequent, alternate. -/
  | ifElse
  /-- Initialiser, test, update, body. -/
  | forLoop
  /-- Target or declaration, object, body. -/
  | forIn
  /-- Target or declaration, iterable, body. -/
  | forOf (isAwait : Bool)
  /-- Test, body. -/
  | whileLoop
  /-- Body, test. -/
  | doWhile
  | continueTo (label : Option String)
  | breakTo (label : Option String)
  /-- Value. -/
  | returnValue
  /-- Value. -/
  | throwValue
  /-- Discriminant, then cases. -/
  | switchOn
  /-- Test, then statements. -/
  | switchCase
  /-- Statement. -/
  | labeled (label : String)
  /-- Block, handler, finaliser. -/
  | tryBlock
  /-- Parameter, block. -/
  | catchClause
  | debuggerStatement
  /-- Object, body. -/
  | withObject
  -- Modules.
  /-- Specifiers, source, attributes. Without any specifier clause the first part is absent. -/
  | importFrom (isType : Bool) (phase : Option String)
  /-- Local name. -/
  | importDefault
  /-- Local name. -/
  | importNamespace
  /-- Imported name, local name. -/
  | importName (isType : Bool)
  /-- Declaration. -/
  | exportDeclaration
  /-- Specifiers, source, attributes. -/
  | exportNames (isType : Bool)
  /-- Local name, exported name. -/
  | exportName (isType : Bool)
  /-- Declaration or expression. -/
  | exportDefault
  /-- Exported name, source, attributes. -/
  | exportAll (isType : Bool)
  /-- Entries, after the given keyword. -/
  | importAttributes (keyword : String)
  /-- Key, value. -/
  | importAttribute
  -- JSX.
  /-- Tag, type arguments, attributes, children, closing tag. -/
  | element (isSelfClosing : Bool)
  /-- Children. -/
  | fragment
  | tagName (name : String)
  /-- Namespace, name. -/
  | namespacedName (space name : String)
  /-- Object, name. -/
  | tagMember
  /-- Name, value. -/
  | tagAttribute
  /-- Argument. -/
  | spreadAttribute
  /-- The text between the quotes of an attribute. -/
  | attributeText (raw : String)
  /-- Expression. -/
  | container
  | emptyExpression
  /-- Argument. -/
  | spreadChild
  | markupText (raw : String)
  -- Types.
  | keywordType (name : String)
  | thisType
  /-- Name, type arguments. -/
  | typeReference
  /-- Left name, right name. -/
  | qualifiedName
  /-- Name or import, type arguments. -/
  | typeQuery
  /-- Element. -/
  | arrayType
  /-- Object, index. -/
  | indexedAccessType
  /-- Elements. -/
  | tupleType
  /-- Type. -/
  | optionalType
  /-- Type. -/
  | restType
  /-- Label, type. -/
  | namedTupleMember (isOptional : Bool)
  /-- Types. -/
  | unionType
  /-- Types. -/
  | intersectionType
  /-- Type parameters, this parameter, parameters, return type. -/
  | functionType
  /-- Type parameters, parameters, return type. -/
  | constructorType (isAbstract : Bool)
  /-- Checked type, bound, true branch, false branch. -/
  | conditionalType
  /-- Type parameter. -/
  | inferType
  /-- Type. -/
  | operatorType (operator : String)
  /-- Type. -/
  | parenthesizedType
  /-- Literal. -/
  | literalType
  /-- A template type by the raw texts around its types: types. -/
  | templateType (raws : List String)
  /-- Signatures. -/
  | typeLiteral
  /-- Name, constraint, name type, type. -/
  | mappedType (readonlyModifier optionalModifier : MappedModifier)
  /-- Argument, options, qualifier, type arguments. -/
  | importType
  /-- Parameter, type. -/
  | typePredicate (isAsserts : Bool)
  /-- Key, type. -/
  | propertySignature (isReadonly isOptional isComputed : Bool)
  /-- Key, type parameters, this parameter, parameters, return type. -/
  | methodSignature (accessor : AccessorKind) (isOptional isComputed : Bool)
  /-- Type parameters, this parameter, parameters, return type. -/
  | callSignature
  /-- Type parameters, parameters, return type. -/
  | constructSignature
  /-- Parameter name, parameter type, type. -/
  | indexSignature (isReadonly isStatic : Bool)
  /-- Type parameters. -/
  | typeParameters
  /-- Name, constraint, default. -/
  | typeParameter (isConst isIn isOut : Bool)
  /-- Types. -/
  | typeArguments
  -- TypeScript declarations.
  /-- Name, type parameters, type. -/
  | typeAlias (isDeclare : Bool)
  /-- Name, type parameters, heritage, members. -/
  | interfaceDefinition (isDeclare : Bool)
  /-- Expression, type arguments. -/
  | heritage
  /-- Name, members. -/
  | enumDefinition (isConst isDeclare : Bool)
  /-- Key, initialiser. -/
  | enumMember (isComputed : Bool)
  /-- Name, body. -/
  | moduleDefinition (keyword : String) (isDeclare : Bool)
  /-- Directives and statements. -/
  | moduleBlock
  /-- Name, reference. -/
  | importEquals (isType : Bool)
  /-- Source. -/
  | externalModule
  /-- Expression. -/
  | exportAssignment
  | exportAsNamespace (name : String)
deriving DecidableEq, Inhabited

end Concise
