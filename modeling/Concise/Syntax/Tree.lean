import Concise.Text.Span
import Concise.Syntax.Kind

/-!
Syntax trees. The three constructs that simplification is about have constructors of their own:
identifier references, properties of object literals, and functions. All else is a `node` of some
`Kind` with its parts in document order, so that a statement about every tree is an induction with
four cases.

* `Tree.parts` is the list of the direct parts of a tree in the order in which a walk visits them.
* A property's key comes before its value. A function's parts are its type parameters, its `this`
  parameter, its parameters, its return type and its body; its own name is no part, because it is
  declared by the function and refers to nothing.
-/

namespace Concise

/-- The shape of an object property. -/
structure PropertyForm where
  accessor : AccessorKind := .init
  isMethod : Bool := false
  isShorthand : Bool := false
  isComputed : Bool := false
deriving DecidableEq, Inhabited

/-- Whether a function is declared by a statement or stands in an expression. -/
inductive FunctionRole where
  | declaration
  | expression
deriving DecidableEq, Inhabited

/-- A name and the place where it is written. -/
structure Name where
  text : String
  span : Span
deriving DecidableEq, Inhabited

/-- What a function is apart from its parts. -/
structure FunctionHead where
  role : FunctionRole := .expression
  name : Option Name := none
  isAsync : Bool := false
  isGenerator : Bool := false
  isDeclare : Bool := false
  /-- The function stood directly inside parentheses. -/
  wasParenthesized : Bool := false
deriving DecidableEq, Inhabited

/-- Syntax trees. -/
inductive Tree where
  /-- An identifier used as an expression, a target, a type name or a component name. -/
  | reference (span : Span) (name : String)
  /-- A property of an object literal. -/
  | property (span : Span) (form : PropertyForm) (key value : Tree)
  /-- A function that is not an arrow function. -/
  | function (span : Span) (head : FunctionHead)
      (typeParameters thisParameter parameters returnType body : Tree)
  /-- Any other construct. -/
  | node (kind : Kind) (span : Span) (parts : List Tree)
deriving Inhabited

namespace Tree

/-- Where a tree stands in the source. -/
def span : Tree → Span
  | reference s _ => s
  | property s _ _ _ => s
  | function s _ _ _ _ _ _ => s
  | node _ s _ => s

/-- The direct parts of a tree in the order of a walk. -/
def parts : Tree → List Tree
  | reference _ _ => []
  | property _ _ key value => [key, value]
  | function _ _ typeParameters thisParameter parameters returnType body =>
      [typeParameters, thisParameter, parameters, returnType, body]
  | node _ _ parts => parts

/-- A part that the source leaves out. -/
def absent : Tree := node .absent Span.zero []

/-- Whether a part is present. -/
def isPresent : Tree → Bool
  | node .absent _ _ => false
  | _ => true

/-- Whether a parameter, or a part of a pattern, is a rest. -/
def isRest : Tree → Bool
  | node .restPattern _ _ => true
  | _ => false

/-- The tree inside parentheses, however many. -/
def withoutParentheses : Tree → Tree
  | node .parenthesized _ [inner] => inner.withoutParentheses
  | t => t

mutual

/-- The length of the longest path from the root to a leaf. -/
def height : Tree → Nat
  | reference _ _ => 1
  | property _ _ key value => 1 + max key.height value.height
  | function _ _ typeParameters thisParameter parameters returnType body =>
      1 + max typeParameters.height (max thisParameter.height
        (max parameters.height (max returnType.height body.height)))
  | node _ _ parts => 1 + heights parts

/-- The height of the highest tree of a list. -/
def heights : List Tree → Nat
  | [] => 0
  | t :: ts => max t.height (heights ts)

end

end Tree

end Concise
