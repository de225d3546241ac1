import Concise.Syntax.Tree

/-!
References in a tree.

* `Tree.references` lists the identifier references of a tree in document order.
* `Tree.mentions` says whether one of them has a given name. It looks everywhere, also in nested
  functions and where another declaration of the name hides the outer one.
* `Tree.functions` lists the functions of a tree in document order, each before what it contains.
* `Tree.isSelfReferential` says whether a function refers to its own name from its parameters or
  from its body.
-/

namespace Concise.Tree

mutual

/-- The identifier references of a tree, in document order. -/
def references : Tree → List Name
  | reference span name => [⟨name, span⟩]
  | property _ _ key value => key.references ++ value.references
  | function _ _ typeParameters this parameters returned body =>
      typeParameters.references ++ (this.references ++ (parameters.references ++
        (returned.references ++ body.references)))
  | node _ _ parts => referencesAll parts

/-- The identifier references of some trees, in document order. -/
def referencesAll : List Tree → List Name
  | [] => []
  | t :: ts => t.references ++ referencesAll ts

end

mutual

/-- Whether an identifier reference with the given name stands somewhere in a tree. -/
def mentions (name : String) : Tree → Bool
  | reference _ text => text == name
  | property _ _ key value => key.mentions name || value.mentions name
  | function _ _ typeParameters this parameters returned body =>
      typeParameters.mentions name || this.mentions name || parameters.mentions name ||
        returned.mentions name || body.mentions name
  | node _ _ parts => anyMentions name parts

/-- Whether an identifier reference with the given name stands somewhere in some trees. -/
def anyMentions (name : String) : List Tree → Bool
  | [] => false
  | t :: ts => t.mentions name || anyMentions name ts

end

/-- Whether a function refers to its own name. A default value of a parameter is evaluated where the
name is known, so parameters count as well as the body. -/
def refersToSelf (name : Option Name) (parameters body : Tree) : Bool :=
  match name with
  | some name => parameters.mentions name.text || body.mentions name.text
  | none => false

/-- Whether a tree is a function that refers to its own name. -/
def isSelfReferential : Tree → Bool
  | function _ head _ _ parameters _ body => refersToSelf head.name parameters body
  | _ => false

mutual

/-- The functions of a tree, arrow functions apart, each before what it contains. -/
def functions : Tree → List Tree
  | reference _ _ => []
  | property _ _ key value => key.functions ++ value.functions
  | function span head typeParameters this parameters returned body =>
      function span head typeParameters this parameters returned body ::
        (typeParameters.functions ++ (this.functions ++ (parameters.functions ++
          (returned.functions ++ body.functions))))
  | node _ _ parts => functionsAll parts

/-- The functions of some trees. -/
def functionsAll : List Tree → List Tree
  | [] => []
  | t :: ts => t.functions ++ functionsAll ts

end

/-- The own name of a function. -/
def functionName? : Tree → Option String
  | function _ head _ _ _ _ _ => head.name.map (·.text)
  | _ => none

end Concise.Tree
