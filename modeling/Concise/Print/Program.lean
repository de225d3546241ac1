import Concise.Print.Module

/-!
Printed programs. The rules for all kinds of trees are tied together by recursion on a bound for the
depth of the tree.

* `part` prints a tree that is part of something.
* `statement` prints a tree that is a statement of its own, with its comments and indentation.
* `Program.print` prints a whole program.
-/

namespace Concise

namespace Print

/-- Prints an expression without parts. -/
def leaf (kind : Kind) : Printer Unit :=
  match kind with
  | .word name => word name
  | .staticName name => word name
  | .privateName name => text ("#" ++ name)
  | .binding name => word name
  | .thisValue => word "this"
  | .superValue => word "super"
  | .nullValue => word "null"
  | .boolean value => word (if value then "true" else "false")
  | .number raw => number raw
  | .bigInteger raw => word (toString (Numeral.bigValue raw) ++ "n")
  | .string value hasLone => string value hasLone
  | .regularExpression pattern flags => regularExpression pattern flags
  | .metaProperty object property => word (object ++ "." ++ property)
  | _ => pure ()

/-- Prints an expression. -/
def expression (rules : Rules) (level : Level) (limits : Limits) (kind : Kind) (span : Span)
    (parts : List Tree) : Printer Unit :=
  match kind, parts with
  | .template raws, _ => template rules raws parts
  | .taggedTemplate, [a, b, c] => taggedTemplate rules a b c
  | .object, _ => object rules span parts
  | .array, _ => array rules parts
  | .spread _, [a] => spread rules a
  | .sequence, _ => sequence rules level limits parts
  | .parenthesized, [a] => rules (.part level limits) a
  | .unary symbol, [a] => unary rules level limits symbol a
  | .update symbol isPrefixed, [a] => update rules level limits symbol isPrefixed a
  | .binary symbol, [a, b] => binary rules level limits symbol a b
  | .logical symbol, [a, b] => binary rules level limits symbol a b
  | .conditional, [a, b, c] => conditional rules level limits a b c
  | .assignment symbol, [a, b] => assignment rules level limits symbol a b
  | .member isOptional, [a, b] => member rules limits isOptional a b
  | .computedMember isOptional, [a, b] => computedMember rules limits isOptional a b
  | .call isOptional, [a, b, c] => call rules level limits span.stop isOptional a b c
  | .construct, [a, _, c] => construct rules level span.stop a c
  | .chain, [a] => parenthesizedIf (Level.update ≤ level) (rules (.part Level.lowest limits) a)
  | .yieldValue isDelegate, [a] => yieldValue rules level isDelegate a
  | .awaitValue, [a] => awaitValue rules level limits a
  | .importCall phase, [a, b] => importCall rules level limits phase a b
  | .arrow isAsync isExpression wasParenthesized, [a, b, c, d] =>
      arrow rules level limits isAsync isExpression wasParenthesized a b c d
  | .classDefinition isExpression isDeclare isAbstract, [a, b, c, d, e, f, g] =>
      classDefinition rules isExpression isDeclare isAbstract a b c d e f g
  | .asType, [a, b] => asType rules level limits a b
  | .satisfiesType, [a, b] => satisfiesType rules level a b
  | .typeAssertion, [a, b] => typeAssertion rules limits a b
  | .nonNull, [a] => nonNull rules a
  | .instantiation, [a, b] => do
      rules (.part level limits) a
      rules .loose b
  | _, _ => leaf kind

/-- Prints a pattern, a target or a member of a class. -/
def pattern (rules : Rules) (kind : Kind) (parts : List Tree) : Printer Unit :=
  match kind, parts with
  | .objectPattern, _ => objectPattern rules parts
  | .arrayPattern, _ => elements rules parts
  | .objectTarget, _ => objectTarget rules parts
  | .arrayTarget, _ => elements rules parts
  | .typedPattern isOptional, [a, b] => typedPattern rules isOptional a b
  | .patternProperty _ isComputed, [a, b] => patternProperty rules isComputed a b
  | .defaultPattern, [a, b] => withDefault rules a b
  | .restPattern, [a] => spread rules a
  | .parameter modifiers, [a, b] => parameter rules modifiers a b
  | .thisParameter, [a] => do
      text "this"
      annotation rules a
  | .targetShorthand, [a, b] => withDefault rules a b
  | .targetProperty isComputed, [a, b] => do
      key rules isComputed a
      text ": "
      rules .item b
  | .defaultTarget, [a, b] => withDefault rules a b
  | .restTarget, [a] => spread rules a
  | .methodDefinition modifiers accessor isComputed isOptional, [a, b, c] =>
      methodDefinition rules modifiers accessor isComputed isOptional a b c
  | .fieldDefinition modifiers isComputed isOptional isDefinite, [a, b, c, d] =>
      fieldDefinition rules modifiers isComputed isOptional isDefinite a b c d
  | .staticBlock, _ => staticBlock rules parts
  | .decorator, [a] => decorator rules a
  | _, _ => pure ()

/-- Prints a part of JSX. -/
def markup (rules : Rules) (kind : Kind) (span : Span) (parts : List Tree) : Printer Unit :=
  match kind, parts with
  | .element isSelfClosing, [a, b, c, d, e] => element rules isSelfClosing a b c d e
  | .fragment, _ => fragment rules parts
  | .tagName name, _ => text name
  | .namespacedName space name, _ => namespacedName space name
  | .tagMember, [a, b] => tagMember rules a b
  | .tagAttribute, [a, b] => tagAttribute rules a b
  | .spreadAttribute, [a] => spreadContainer rules a
  | .attributeText raw, _ => attributeText raw
  | .container, [a] => container rules a
  | .emptyExpression, _ => leadingComments span.stop
  | .spreadChild, [a] => spreadContainer rules a
  | .markupText raw, _ => text raw
  | _, _ => pure ()

/-- Prints a type. -/
def type (rules : Rules) (kind : Kind) (parts : List Tree) : Printer Unit :=
  match kind, parts with
  | .keywordType name, _ => text name
  | .thisType, _ => text "this"
  | .typeReference, [a, b] => do
      rules .loose a
      present rules b
  | .qualifiedName, [a, b] => do
      rules .loose a
      text "."
      rules .loose b
  | .typeQuery, [a, b] => do
      text "typeof "
      rules .loose a
      present rules b
  | .arrayType, [a] => do
      rules .loose a
      text "[]"
  | .indexedAccessType, [a, b] => do
      rules .loose a
      text "["
      rules .loose b
      text "]"
  | .tupleType, _ => do
      text "["
      listed (rules .loose) parts
      text "]"
  | .optionalType, [a] => do
      rules .loose a
      text "?"
  | .restType, [a] => do
      text "..."
      rules .loose a
  | .namedTupleMember isOptional, [a, b] => typedPattern rules isOptional a b
  | .unionType, _ => operatorChain rules "|" parts
  | .intersectionType, _ => operatorChain rules "&" parts
  | .functionType, [a, b, c, d] => functionType rules a b c d
  | .constructorType isAbstract, [a, b, c] => constructorType rules isAbstract a b c
  | .conditionalType, [a, b, c, d] => conditionalType rules a b c d
  | .inferType, [a] => do
      text "infer "
      rules .loose a
  | .operatorType symbol, [a] => do
      text (symbol ++ " ")
      rules .loose a
  | .parenthesizedType, [a] => do
      text "("
      rules .loose a
      text ")"
  | .literalType, [a] => literalType rules a
  | .templateType raws, _ => template rules raws parts
  | .typeLiteral, _ => typeMembers rules parts
  | .mappedType readonlyModifier optionalModifier, [a, b, c, d] =>
      mappedType rules readonlyModifier optionalModifier a b c d
  | .importType, [a, b, c, d] => importType rules a b c d
  | .typePredicate isAsserts, [a, b] => typePredicate rules isAsserts a b
  | .propertySignature isReadonly isOptional isComputed, [a, b] =>
      propertySignature rules isReadonly isOptional isComputed a b
  | .methodSignature accessor isOptional isComputed, [a, b, c, d, e] =>
      methodSignature rules accessor isOptional isComputed a b c d e
  | .callSignature, [a, b, c, d] => signature rules a b c d
  | .constructSignature, [a, b, c] => constructSignature rules a b c
  | .indexSignature isReadonly isStatic, [a, b, c] => indexSignature rules isReadonly isStatic a b c
  | .typeParameters, _ => typeParameters rules parts
  | .typeParameter isConst isIn isOut, [a, b, c] => typeParameter rules isConst isIn isOut a b c
  | .typeArguments, _ => typeArguments rules parts
  | .heritage, [a, b] => do
      rules .loose a
      present rules b
  | _, _ => pure ()

/-- Prints a statement or a declaration without its indentation. -/
def bareStatement (rules : Rules) (limits : Limits) (kind : Kind) (span : Span)
    (parts : List Tree) : Printer Unit :=
  match kind, parts with
  | .functionBody, _ => functionBody rules span parts
  | .moduleBlock, _ => braces parts.isEmpty (bodyLines rules parts)
  | .block, _ => block rules parts
  | .directive raw, _ => do
      text (directive (← read).quote raw)
      endStatement
  | .emptyStatement, _ => endStatement
  | .expressionStatement, [a] => do
      modify fun out => { out with statementStart := some out.size }
      rules .loose a
      endStatement
  | .declarations keyword isDeclare, _ => declarations rules limits keyword isDeclare parts
  | .declarator isDefinite, [a, b] => declarator rules limits isDefinite a b
  | .ifElse, [a, b, c] => ifElse rules a b c
  | .forLoop, [a, b, c, d] => forLoop rules a b c d
  | .forIn, [a, b, c] => forIn rules a b c
  | .forOf isAwait, [a, b, c] => forOf rules isAwait a b c
  | .whileLoop, [a, b] => whileLoop rules a b
  | .doWhile, [a, b] => doWhile rules a b
  | .continueTo label, _ => jump "continue" label
  | .breakTo label, _ => jump "break" label
  | .returnValue, [a] => withValue rules "return" a
  | .throwValue, [a] => withValue rules "throw" a
  | .switchOn, a :: cases => switchOn rules a cases
  | .switchCase, a :: items => switchCase rules a items
  | .labeled label, [a] => do
      text (label ++ ":")
      body rules a
  | .tryBlock, [a, b, c] => tryBlock rules a b c
  | .catchClause, [a, b] => catchClause rules a b
  | .debuggerStatement, _ => do
      text "debugger"
      endStatement
  | .withObject, [a, b] => do
      text "with"
      headExpression rules a
      body rules b
  | .typeAlias isDeclare, [a, b, c] => typeAlias rules isDeclare a b c
  | .interfaceDefinition isDeclare, [a, b, c, d] => interfaceDefinition rules isDeclare a b c d
  | .enumDefinition isConst isDeclare, a :: members =>
      enumDefinition rules isConst isDeclare a members
  | .enumMember isComputed, [a, b] => enumMember rules isComputed a b
  | .moduleDefinition keyword isDeclare, [a, b] => moduleDefinition rules keyword isDeclare a b
  | _, _ => pure ()

/-- Prints an import or an export without its indentation. -/
def moduleItem (rules : Rules) (kind : Kind) (parts : List Tree) : Printer Unit :=
  match kind, parts with
  | .importFrom isType phase, [a, b, c] => importFrom rules isType phase a b c
  | .importDefault, [a] => rules .loose a
  | .importNamespace, [a] => importNamespace rules a
  | .importName isType, [a, b] => renamed rules isType a b
  | .exportDeclaration, [a] => exportDeclaration rules a
  | .exportNames isType, [a, b, c] => exportNames rules isType a b c
  | .exportName isType, [a, b] => renamed rules isType a b
  | .exportDefault, [a] => exportDefault rules a
  | .exportAll isType, [a, b, c] => exportAll rules isType a b c
  | .importAttributes keyword, _ => importAttributes rules keyword parts
  | .importAttribute, [a, b] => importAttribute rules a b
  | .importEquals isType, [a, b] => importEquals rules isType a b
  | .externalModule, [a] => do
      text "require("
      rules .loose a
      text ")"
  | .exportAssignment, [a] => do
      text "export = "
      rules .loose a
      endStatement
  | .exportAsNamespace name, _ => do
      text ("export as namespace " ++ name)
      endStatement
  | _, _ => pure ()

/-- The families of kinds, by which their nodes are printed. -/
inductive Family where
  | expression
  | pattern
  | markup
  | type
  | statement
  | moduleItem

/-- The family of a kind. -/
def family : Kind → Family
  | .typedPattern _ | .objectPattern | .patternProperty _ _ | .arrayPattern | .defaultPattern
  | .restPattern | .parameter _ | .thisParameter | .objectTarget | .targetShorthand
  | .targetProperty _ | .arrayTarget | .defaultTarget | .restTarget | .methodDefinition _ _ _ _
  | .fieldDefinition _ _ _ _ | .staticBlock | .decorator => .pattern
  | .element _ | .fragment | .tagName _ | .namespacedName _ _ | .tagMember | .tagAttribute
  | .spreadAttribute | .attributeText _ | .container | .emptyExpression | .spreadChild
  | .markupText _ => .markup
  | .keywordType _ | .thisType | .typeReference | .qualifiedName | .typeQuery | .arrayType
  | .indexedAccessType | .tupleType | .optionalType | .restType | .namedTupleMember _ | .unionType
  | .intersectionType | .functionType | .constructorType _ | .conditionalType | .inferType
  | .operatorType _ | .parenthesizedType | .literalType | .templateType _ | .typeLiteral
  | .mappedType _ _ | .importType | .typePredicate _ | .propertySignature _ _ _
  | .methodSignature _ _ _ | .callSignature | .constructSignature | .indexSignature _ _
  | .typeParameters | .typeParameter _ _ _ | .typeArguments | .heritage => .type
  | .functionBody | .moduleBlock | .block | .directive _ | .emptyStatement | .expressionStatement
  | .declarations _ _ | .declarator _ | .ifElse | .forLoop | .forIn | .forOf _ | .whileLoop
  | .doWhile | .continueTo _ | .breakTo _ | .returnValue | .throwValue | .switchOn | .switchCase
  | .labeled _ | .tryBlock | .catchClause | .debuggerStatement | .withObject | .typeAlias _
  | .interfaceDefinition _ | .enumDefinition _ _ | .enumMember _ | .moduleDefinition _ _ =>
      .statement
  | .importFrom _ _ | .importDefault | .importNamespace | .importName _ | .exportDeclaration
  | .exportNames _ | .exportName _ | .exportDefault | .exportAll _ | .importAttributes _
  | .importAttribute | .importEquals _ | .externalModule | .exportAssignment
  | .exportAsNamespace _ => .moduleItem
  | _ => .expression

/-- Prints a tree that is part of something. -/
def part (rules : Rules) (level : Level) (limits : Limits) : Tree → Printer Unit
  | .reference _ name => word name
  | .property _ form name value => property rules form name value
  | .function _ head generics this list returned body =>
      function rules head generics this list returned body
  | .node kind span parts =>
      match family kind with
      | .expression => expression rules level limits kind span parts
      | .pattern => pattern rules kind parts
      | .markup => markup rules kind span parts
      | .type => type rules kind parts
      | .statement => bareStatement rules limits kind span parts
      | .moduleItem => moduleItem rules kind parts

/-- Whether a statement leaves the end of its line to whoever prints it. -/
def leavesLineOpen : Tree → Bool
  | .function _ _ _ _ _ _ _ => true
  | .node kind _ _ =>
      match kind with
      | .block | .classDefinition _ _ _ | .declarations _ _ | .typeAlias _ | .interfaceDefinition _
      | .enumDefinition _ _ | .moduleDefinition _ _ | .importEquals _ => true
      | _ => false
  | _ => false

/-- Prints a statement with its comments, its indentation and the end of its line. -/
def statement (rules : Rules) (tree : Tree) : Printer Unit := do
  leadingComments tree.span.start
  indentation
  rules .loose tree
  if leavesLineOpen tree then endDeclaration tree

/-- Prints a tree whose depth is within a bound. -/
def tree : Nat → Rules
  | 0, _, _ => pure ()
  | depth + 1, .statement, t => statement (tree depth) t
  | depth + 1, .part level limits, t => part (tree depth) level limits t

/-- A bound for the depth of the calls that print a tree: a statement is printed twice, once with
and once without its indentation. -/
def depthBound (t : Tree) : Nat := 2 * t.height + 2

/-- Prints the top of a program. -/
def program (rules : Rules) (hashbang : Option String) (span : Span) (items : List Tree) :
    Printer Unit := do
  match hashbang with
  | some line => do
      text ("#!" ++ line)
      newline
  | none => pure ()
  bodyLines rules items
  leadingComments span.stop

end Print

namespace Program

/-- The text of a program. -/
def print (options : PrintOptions) (p : Program) : String :=
  let settings : Print.Settings := { quote := options.quote, hasMarkup := p.dialect.hasMarkup }
  match p.tree with
  | .node (.program hashbang) span items =>
      let printer := Print.program (Print.tree (Print.depthBound p.tree)) hashbang span items
      let (_, out) := printer settings { comments := p.comments }
      String.ofList out.reversed.reverse
  | _ => ""

end Program

end Concise
