import Concise.Print.Statement

/-!
Printed imports, exports and type-level declarations.
-/

namespace Concise.Print

/-! ### Imports -/

/-- Prints names in braces, with blanks inside the braces. -/
def namesInBraces (rules : Rules) (items : List Tree) : Printer Unit := do
  openBrace
  if !items.isEmpty then
    blank
    listed (rules .loose) items
    blank
  closeBrace

/-- Prints the attributes of an import. -/
def importAttributes (rules : Rules) (keyword : String) (entries : List Tree) : Printer Unit := do
  text (keyword ++ " ")
  namesInBraces rules entries

/-- Prints an attribute of an import. -/
def importAttribute (rules : Rules) (name value : Tree) : Printer Unit := do
  rules .loose name
  text ": "
  rules .loose value

/-- Prints attributes after a blank, if there are any. -/
def attributesTail (rules : Rules) (attributes : Tree) : Printer Unit :=
  clause rules attributes

/-- Whether a specifier stands in braces. -/
def isNamed : Tree → Bool
  | .node (.importName _) _ _ => true
  | _ => false

/-- Prints the clause of an import. -/
def importClause (rules : Rules) (items : List Tree) : Printer Unit := do
  let named := items.filter isNamed
  let others := items.filter fun item => !isNamed item
  listed (rules .loose) others
  if !named.isEmpty then
    if !others.isEmpty then text ", "
    namesInBraces rules named

/-- The value of a string literal. -/
def stringValue : Tree → String
  | .node (.string value _) _ _ => value
  | _ => ""

/-- Prints an import. An empty clause has its source in double quotes, as it is. -/
def importFrom (rules : Rules) (isType : Bool) (phase : Option String)
    (specifiers source attributes : Tree) : Printer Unit := do
  text "import"
  if isType then text " type"
  match phase with
  | some keyword => text (" " ++ keyword)
  | none => pure ()
  blank
  if specifiers.isPresent then
    if specifiers.parts.isEmpty then
      text "\x7b\x7d from \""
      text (stringValue source)
      text "\""
    else
      importClause rules specifiers.parts
      text " from "
      rules .loose source
  else rules .loose source
  attributesTail rules attributes
  endStatement

/-- The text of a name in a clause, if it is no string. -/
def clauseText? : Tree → Option String
  | .node (.word name) _ _ => some name
  | .node (.binding name) _ _ => some name
  | .reference _ name => some name
  | _ => none

/-- Whether two names in a clause are the same. -/
def isSameClauseName (a b : Tree) : Bool :=
  match clauseText? a, clauseText? b with
  | some x, some y => x == y
  | none, none => stringValue a == stringValue b
  | _, _ => false

/-- Prints a name in a clause and, if it differs, the name it is given. -/
def renamed (rules : Rules) (isType : Bool) (name other : Tree) : Printer Unit := do
  if isType then text "type "
  rules .loose name
  if !isSameClauseName name other then
    text " as "
    rules .loose other

/-- Prints a namespace import. -/
def importNamespace (rules : Rules) (name : Tree) : Printer Unit := do
  text "* as "
  rules .loose name

/-! ### Exports -/

/-- Whether a declaration ends with a semicolon. -/
def endsWithSemicolon : Tree → Bool
  | .node (.declarations _ _) _ _ => true
  | .node (.typeAlias _) _ _ => true
  | .node (.importEquals _) _ _ => true
  | _ => false

/-- Ends a declaration. -/
def endDeclaration (tree : Tree) : Printer Unit :=
  if endsWithSemicolon tree then endStatement else newline

/-- Prints an exported declaration. -/
def exportDeclaration (rules : Rules) (tree : Tree) : Printer Unit := do
  text "export "
  rules .loose tree
  endDeclaration tree

/-- Prints exported names. -/
def exportNames (rules : Rules) (isType : Bool) (specifiers source attributes : Tree) :
    Printer Unit := do
  text "export "
  if isType then text "type "
  namesInBraces rules specifiers.parts
  if source.isPresent then
    text " from "
    rules .loose source
  attributesTail rules attributes
  endStatement

/-- Prints an export of all names. -/
def exportAll (rules : Rules) (isType : Bool) (exported source attributes : Tree) :
    Printer Unit := do
  text "export "
  if isType then text "type "
  text "*"
  if exported.isPresent then
    text " as "
    rules .loose exported
  text " from "
  rules .loose source
  attributesTail rules attributes
  endStatement

/-- Whether a default export is a declaration. -/
def isDeclaration : Tree → Bool
  | .function _ head _ _ _ _ _ => head.role == .declaration
  | .node (.classDefinition isExpression _ _) _ _ => !isExpression
  | .node (.interfaceDefinition _) _ _ => true
  | _ => false

/-- Prints a default export. -/
def exportDefault (rules : Rules) (tree : Tree) : Printer Unit := do
  text "export default "
  if isDeclaration tree then
    rules .loose tree
    newline
  else
    modify fun out => { out with exportStart := some out.size }
    rules .item tree
    endStatement

/-! ### Type-level declarations -/

/-- Prints `declare` if asked. -/
def declareIf (isDeclare : Bool) : Printer Unit := if isDeclare then text "declare " else pure ()

/-- Prints a type other. -/
def typeAlias (rules : Rules) (isDeclare : Bool) (name generics type : Tree) : Printer Unit := do
  declareIf isDeclare
  text "type "
  rules .loose name
  present rules generics
  text " = "
  rules .loose type

/-- Prints an interface. -/
def interfaceDefinition (rules : Rules) (isDeclare : Bool) (name generics parents members : Tree) :
    Printer Unit := do
  declareIf isDeclare
  text "interface "
  rules .loose name
  present rules generics
  if parents.isPresent then
    text " extends "
    listed (rules .loose) parents.parts
  blank
  typeMembers rules members.parts

/-- Prints an enumeration. -/
def enumDefinition (rules : Rules) (isConst isDeclare : Bool) (name : Tree) (members : List Tree) :
    Printer Unit := do
  declareIf isDeclare
  if isConst then text "const "
  text "enum "
  rules .loose name
  blank
  braces members.isEmpty do
    indentation
    separated (do text ","; newline; indentation) (rules .loose) members
    newline

/-- Prints a member of an enumeration. -/
def enumMember (rules : Rules) (isComputed : Bool) (name value : Tree) : Printer Unit := do
  key rules isComputed name
  if value.isPresent then
    text " = "
    rules .loose value

/-- Prints the names of nested namespaces after the first, and the body. -/
def namespaceTail (rules : Rules) : Tree → Printer Unit
  | .node (.moduleDefinition _ _) _ [name, inner] => do
      text "."
      rules .loose name
      namespaceTail rules inner
  | .node kind span parts => do
      let tree := Tree.node kind span parts
      if tree.isPresent then
        blank
        rules .loose tree
      else text ";"
  | _ => pure ()

/-- Prints a namespace. -/
def moduleDefinition (rules : Rules) (keyword : String) (isDeclare : Bool) (name inner : Tree) :
    Printer Unit := do
  declareIf isDeclare
  text keyword
  if keyword != "global" then
    blank
    rules .loose name
  namespaceTail rules inner

/-- Prints an other of a module. -/
def importEquals (rules : Rules) (isType : Bool) (name target : Tree) : Printer Unit := do
  text "import "
  if isType then text "type "
  rules .loose name
  text " = "
  rules .loose target

end Concise.Print
