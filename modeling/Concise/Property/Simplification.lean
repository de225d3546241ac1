import Concise.Property.Basic
import Concise.Text.Identifier

/-!
Simplifications of properties: `a: a` becomes `a`, and `a: function () {}` becomes `a() {}`.

* `Key.simplification?` decides by the views of key and value.
* `Property.simplified?` carries a simplification out, or refuses if the value has the wrong shape.
* `Tree.simplifyWith` carries out, in one pass in document order, the simplifications that a choice
  with a state makes for each property.
-/

namespace Concise

/-- The ways to write a property shorter. -/
inductive Simplification where
  /-- A key and the same identifier become the identifier. -/
  | shorthand
  /-- A key and a function become a method. -/
  | method
deriving DecidableEq, Inhabited

/-- The name of a simplification. -/
def Simplification.name : Simplification → String
  | shorthand => "shorthand"
  | method => "method"

/-! ### Decision -/

/-- The key that sets the prototype when it is written with a colon, and defines a property
otherwise. -/
def Key.prototypeText : String := "__proto__"

/-- The simplification that keeps the meaning of a property with this key and value. A method does
not know its own name, so a function that refers to itself stays; a quoted key becomes a method's
name only if it can stand without quotes; the key that sets the prototype is never touched. -/
def Key.simplification? (key : Key) (value : Value) : Option Simplification :=
  if key.text == prototypeText then none
  else
    match key, value with
    | _, .reference name => if key.text == name then some .shorthand else none
    | .plain _, .function name parameters body =>
        if Tree.refersToSelf name parameters body then none else some .method
    | .quoted text, .function name parameters body =>
        if !Tree.refersToSelf name parameters body && Identifier.isPropertyName text then
          some .method
        else none

namespace Property

/-- The simplification that fits a property by its key and value, whatever its form. -/
def classify? (p : Property) : Option Simplification := do
  let key ← p.keyView?
  let value ← p.valueView?
  key.simplification? value

end Property

/-! ### Application -/

/-- A string literal as a bare name; other keys stay. -/
def Tree.unquoted : Tree → Tree
  | .node (.string value _) span [] => .node (.staticName value) span []
  | key => key

/-- A function without its own name. -/
def Tree.unnamed : Tree → Tree
  | .function span head typeParameters this parameters returned body =>
      .function span { head with name := none } typeParameters this parameters returned body
  | tree => tree

namespace Property

/-- Carries a simplification out, whatever the form of the property; `none` if the value does not
have the shape that the simplification needs. -/
def simplified? (p : Property) : Simplification → Option Property
  | .shorthand =>
      match p.value with
      | .reference span name =>
          some { p with
            key := .node (.staticName name) span []
            form := { p.form with isShorthand := true } }
      | _ => none
  | .method =>
      match p.value with
      | .function _ _ _ _ _ _ _ =>
          some { p with
            key := p.key.unquoted
            value := p.value.unnamed
            form := { p.form with isMethod := true } }
      | _ => none

/-- Carries a simplification out if there is one and it fits. -/
def simplifiedBy (p : Property) : Option Simplification → Property
  | some s => (p.simplified? s).getD p
  | none => p

/-- Whether the key is gone once a simplification is carried out. -/
def dropsKey (value : Tree) (chosen : Option Simplification) : Bool :=
  match chosen, value with
  | some .shorthand, .reference _ _ => true
  | _, _ => false

end Property

namespace Tree

mutual

/-- Offers every property to a choice, in document order, and carries out what it chooses. What
stands inside a simplified property is offered afterwards. -/
def simplifyWith {σ : Type} (choose : Property → σ → Option Simplification × σ) :
    Tree → σ → Tree × σ
  | reference span name, s => (reference span name, s)
  | property span form key value, s =>
      let (chosen, s) := choose ⟨span, form, key, value⟩ s
      let (key', s) :=
        if Property.dropsKey value chosen then (key, s) else key.simplifyWith choose s
      let (value', s) := value.simplifyWith choose s
      ((Property.simplifiedBy ⟨span, form, key', value'⟩ chosen).tree, s)
  | function span head typeParameters this parameters returned body, s =>
      let (typeParameters, s) := typeParameters.simplifyWith choose s
      let (this, s) := this.simplifyWith choose s
      let (parameters, s) := parameters.simplifyWith choose s
      let (returned, s) := returned.simplifyWith choose s
      let (body, s) := body.simplifyWith choose s
      (function span head typeParameters this parameters returned body, s)
  | node kind span parts, s =>
      let (parts, s) := simplifyAllWith choose parts s
      (node kind span parts, s)

/-- Offers every property of some trees to a choice. -/
def simplifyAllWith {σ : Type} (choose : Property → σ → Option Simplification × σ) :
    List Tree → σ → List Tree × σ
  | [], s => ([], s)
  | t :: ts, s =>
      let (t, s) := t.simplifyWith choose s
      let (ts, s) := simplifyAllWith choose ts s
      (t :: ts, s)

end

/-- Carries a simplification out on the property with the given index in document order. The flag
says whether the property took it. -/
def applyAt (tree : Tree) (index : Nat) (simplification : Simplification) : Tree × Bool :=
  let choose (p : Property) (state : Nat × Bool) : Option Simplification × (Nat × Bool) :=
    match state with
    | (0, taken) => (none, (0, taken))
    | (1, _) => (some simplification, (0, (p.simplified? simplification).isSome))
    | (left + 2, taken) => (none, (left + 1, taken))
  let (tree, _, taken) := tree.simplifyWith choose (index + 1, false)
  (tree, taken)

end Tree

end Concise
