import Concise.Property.Reference

/-!
Properties of object literals, and the views of their keys and values by which they are judged.

* `Tree.properties` lists the properties of a tree in document order: a property before what is
  inside its key and its value, the key before the value.
* `Key` is the view of a key that is a bare name or a literal, `Value` the view of a value that is
  an identifier or a plain function. Other keys and values have no view.
-/

namespace Concise

/-- A property of an object literal. -/
structure Property where
  span : Span
  form : PropertyForm
  key : Tree
  value : Tree
deriving Inhabited

namespace PropertyForm

/-- The property is a getter or a setter. -/
def isAccessor (form : PropertyForm) : Bool := form.accessor != .init

/-- The property is written as a key, a colon and a value. -/
def isPlain (form : PropertyForm) : Bool :=
  !form.isMethod && !form.isShorthand && !form.isComputed && !form.isAccessor

/-- What a property is besides plain, as a sum of distinct powers of two: 1 for a method, 2 for a
shorthand, 4 for a computed key, 8 for an accessor. -/
def bits (form : PropertyForm) : Nat :=
  form.isMethod.toNat + 2 * form.isShorthand.toNat + 4 * form.isComputed.toNat +
    8 * form.isAccessor.toNat

end PropertyForm

/-- The property as a tree. -/
def Property.tree (p : Property) : Tree := .property p.span p.form p.key p.value

namespace Tree

mutual

/-- The properties of the object literals in a tree, in document order. -/
def properties : Tree → List Property
  | reference _ _ => []
  | property span form key value =>
      ⟨span, form, key, value⟩ :: (key.properties ++ value.properties)
  | function _ _ typeParameters this parameters returned body =>
      typeParameters.properties ++ (this.properties ++ (parameters.properties ++
        (returned.properties ++ body.properties)))
  | node _ _ parts => propertiesAll parts

/-- The properties of the object literals in some trees. -/
def propertiesAll : List Tree → List Property
  | [] => []
  | t :: ts => t.properties ++ propertiesAll ts

end

end Tree

/-! ### Views -/

/-- The key of a property, as far as it can be judged. -/
inductive Key where
  /-- A bare name. -/
  | plain (name : String)
  /-- A string by its value, or a number by its spelling. -/
  | quoted (text : String)
deriving DecidableEq, Inhabited

namespace Key

/-- The text of a key. -/
def text : Key → String
  | plain name => name
  | quoted text => text

/-- The view of a tree that stands as a key: of a name or a literal, which have no parts. -/
def ofTree? : Tree → Option Key
  | .node (.staticName name) _ [] => some (plain name)
  | .node (.string value _) _ [] => some (quoted value)
  | .node (.number raw) _ [] => some (quoted raw)
  | _ => none

end Key

/-- The value of a property, as far as it can be judged. -/
inductive Value where
  /-- An identifier. -/
  | reference (name : String)
  /-- A function that is neither asynchronous nor a generator. -/
  | function (name : Option Name) (parameters body : Tree)
deriving Inhabited

namespace Value

/-- The view of a tree that stands as a value. -/
def ofTree? : Tree → Option Value
  | .reference _ name => some (reference name)
  | .function _ head _ _ parameters _ body =>
      if head.isAsync || head.isGenerator then none
      else some (function head.name parameters body)
  | _ => none

end Value

/-- The view of a property's key. -/
def Property.keyView? (p : Property) : Option Key := Key.ofTree? p.key

/-- The view of a property's value. -/
def Property.valueView? (p : Property) : Option Value := Value.ofTree? p.value

end Concise
