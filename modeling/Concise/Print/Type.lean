import Concise.Print.Pattern

/-!
Printed types. Numbers in types keep their spelling.
-/

namespace Concise.Print

/-- Prints type parameters: two or more each on a line, and in a source with markup a single one
with a comma, so that it is not taken for a tag. -/
def typeParameters (rules : Rules) (parts : List Tree) : Printer Unit := do
  text "<"
  if 2 ≤ parts.length then lined (rules .loose) parts
  else
    listed (rules .loose) parts
    if (← read).hasMarkup then text ","
  text ">"

/-- Prints a type parameter. -/
def typeParameter (rules : Rules) (isConst isIn isOut : Bool) (name bound default : Tree) :
    Printer Unit := do
  if isConst then text "const "
  if isIn then text "in "
  if isOut then text "out "
  rules .loose name
  if bound.isPresent then
    text " extends "
    rules .loose bound
  if default.isPresent then
    text " = "
    rules .loose default

/-- Prints type arguments. -/
def typeArguments (rules : Rules) (parts : List Tree) : Printer Unit := do
  text "<"
  listed (rules .loose) parts
  text ">"

/-- Prints a part if it is present. -/
def present (rules : Rules) (tree : Tree) : Printer Unit :=
  if tree.isPresent then rules .loose tree else pure ()

/-- Prints parameters in parentheses, the `this` parameter first. -/
def parameters (rules : Rules) (this list : Tree) : Printer Unit := do
  text "("
  present rules this
  if this.isPresent && !list.parts.isEmpty then text ", "
  listed (rules .loose) list.parts
  text ")"

/-- Prints the parameters and the return type of a signature. -/
def signature (rules : Rules) (generics this list returned : Tree) : Printer Unit := do
  present rules generics
  parameters rules this list
  annotation rules returned

/-- Prints types with an operator between them. -/
def operatorChain (rules : Rules) (symbol : String) (parts : List Tree) : Printer Unit :=
  separated (text (" " ++ symbol ++ " ")) (rules .loose) parts

/-- Prints a literal in a type. -/
def literalType (rules : Rules) : Tree → Printer Unit
  | .node (.number raw) _ _ => text raw
  | .node (.unary symbol) _ [.node (.number raw) _ _] => text (symbol ++ raw)
  | tree => rules .loose tree

/-- Prints the raw texts of a template and what stands between them. -/
def template (rules : Rules) (raws : List String) (items : List Tree) : Printer Unit := do
  text "`"
  go raws items
  text "`"
where
  go : List String → List Tree → Printer Unit
  | raw :: raws, item :: items => do
      text raw
      text "$\x7b"
      rules .loose item
      closeBrace
      go raws items
  | raw :: _, [] => text raw
  | [], _ => pure ()

/-- Prints a modifier of a mapped type. -/
def mappedModifier (modifier : MappedModifier) (spelling : String) : Printer Unit :=
  match modifier with
  | .keep => pure ()
  | .set => text spelling
  | .plus => text ("+" ++ spelling)
  | .minus => text ("-" ++ spelling)

/-- Prints a mapped type. -/
def mappedType (rules : Rules) (readonlyModifier optionalModifier : MappedModifier)
    (name constraint nameType type : Tree) : Printer Unit := do
  openBrace
  blank
  mappedModifier readonlyModifier "readonly "
  text "["
  rules .loose name
  text " in "
  rules .loose constraint
  if nameType.isPresent then
    text " as "
    rules .loose nameType
  text "]"
  mappedModifier optionalModifier "?"
  annotation rules type
  blank
  closeBrace

/-- Prints the members of a type literal or an interface. -/
def typeMembers (rules : Rules) (members : List Tree) : Printer Unit :=
  braces members.isEmpty do
    members.forM fun member => do
      indentation
      rules .loose member
      endStatement

/-- Prints a property signature. -/
def propertySignature (rules : Rules) (isReadonly isOptional isComputed : Bool) (name type : Tree) :
    Printer Unit := do
  if isReadonly then text "readonly "
  key rules isComputed name
  if isOptional then text "?"
  annotation rules type

/-- Prints a method signature. -/
def methodSignature (rules : Rules) (accessor : AccessorKind) (isOptional isComputed : Bool)
    (name generics this list returned : Tree) : Printer Unit := do
  match accessor with
  | .get => text "get "
  | .set => text "set "
  | .init => pure ()
  key rules isComputed name
  if isOptional then text "?"
  signature rules generics this list returned

/-- Prints an index signature. -/
def indexSignature (rules : Rules) (isReadonly isStatic : Bool) (name index type : Tree) :
    Printer Unit := do
  if isStatic then text "static "
  if isReadonly then text "readonly "
  text "["
  rules .loose name
  annotation rules index
  text "]"
  annotation rules type

/-- Prints a function type. -/
def functionType (rules : Rules) (generics this list returned : Tree) : Printer Unit := do
  present rules generics
  parameters rules this list
  text " => "
  rules .loose returned

/-- Prints a constructor type. -/
def constructorType (rules : Rules) (isAbstract : Bool) (generics list returned : Tree) :
    Printer Unit := do
  if isAbstract then text "abstract "
  text "new "
  functionType rules generics .absent list returned

/-- Prints a construct signature. -/
def constructSignature (rules : Rules) (generics list returned : Tree) : Printer Unit := do
  text "new "
  signature rules generics .absent list returned

/-- Prints an import type. -/
def importType (rules : Rules) (argument options qualifier types : Tree) : Printer Unit := do
  text "import("
  rules .loose argument
  if options.isPresent then
    text ", "
    rules .item options
  text ")"
  if qualifier.isPresent then
    text "."
    rules .loose qualifier
  present rules types

/-- Prints a type predicate. -/
def typePredicate (rules : Rules) (isAsserts : Bool) (subject type : Tree) : Printer Unit := do
  if isAsserts then text "asserts "
  rules .loose subject
  if type.isPresent then
    text " is "
    rules .loose type

/-- Prints a conditional type. -/
def conditionalType (rules : Rules) (checked bound positive negative : Tree) : Printer Unit := do
  rules .loose checked
  text " extends "
  rules .loose bound
  text " ? "
  rules .loose positive
  text " : "
  rules .loose negative

end Concise.Print
