import Concise.Print.Comment

/-!
Printed patterns, assignment targets and keys.
-/

namespace Concise.Print

/-- Prints a key, in brackets if it is computed. -/
def key (rules : Rules) (isComputed : Bool) (tree : Tree) : Printer Unit := do
  if isComputed then
    text "["
    rules .item tree
    text "]"
  else rules .item tree

/-- Prints a colon and a type, if there is one. -/
def annotation (rules : Rules) (type : Tree) : Printer Unit := do
  if type.isPresent then
    text ": "
    rules .loose type

/-- Prints an equals sign and a value, if there is one. -/
def initializer (rules : Rules) (limits : Limits) (value : Tree) : Printer Unit := do
  if value.isPresent then
    text " = "
    rules (.part Level.comma limits) value

/-- Prints three dots and what they spread. -/
def spread (rules : Rules) (tree : Tree) : Printer Unit := do
  text "..."
  rules .item tree

/-- Whether a list ends with a rest. -/
def splitRest (trees : List Tree) : List Tree × Option Tree :=
  match trees.getLast? with
  | some (.node .restPattern span parts) =>
      (trees.dropLast, some (.node .restPattern span parts))
  | some (.node .restTarget span parts) => (trees.dropLast, some (.node .restTarget span parts))
  | _ => (trees, none)

/-- Prints an object pattern. No blank stands before a rest that follows other properties. -/
def objectPattern (rules : Rules) (parts : List Tree) : Printer Unit := do
  let (properties, rest?) := splitRest parts
  openBrace
  if !parts.isEmpty then
    blank
    listed (rules .item) properties
    match rest? with
    | some rest => do
        if !properties.isEmpty then text ","
        rules .item rest
    | none => pure ()
    blank
  closeBrace

/-- Whether a key and a pattern name the same thing, so that the key need not be written. -/
def isSameName : Tree → Tree → Bool
  | .node (.staticName name) _ _, .node (.binding bound) _ _ => name == bound
  | .node (.staticName name) _ _, .node .defaultPattern _ (.node (.binding bound) _ _ :: _) =>
      name == bound
  | _, _ => false

/-- Prints a property of an object pattern. -/
def patternProperty (rules : Rules) (isComputed : Bool) (name pattern : Tree) : Printer Unit := do
  if !isSameName name pattern then
    key rules isComputed name
    text ": "
  rules .item pattern

/-- Prints the elements of an array pattern: holes are empty, and one at the end has a comma. -/
def elements (rules : Rules) (parts : List Tree) : Printer Unit := do
  let (items, rest?) := splitRest parts
  text "["
  listed (rules .item) items
  match items.getLast?, rest? with
  | some (.node .hole _ _), none => text ","
  | some _, some _ => text ","
  | _, _ => pure ()
  match rest? with
  | some rest => do
      if !items.isEmpty then blank
      rules .item rest
  | none => pure ()
  text "]"

/-- Prints an object target. -/
def objectTarget (rules : Rules) (parts : List Tree) : Printer Unit := do
  openBrace
  listed (rules .item) parts
  closeBrace

/-- Prints a pattern with its type. -/
def typedPattern (rules : Rules) (isOptional : Bool) (pattern type : Tree) : Printer Unit := do
  rules .item pattern
  if isOptional then text "?"
  annotation rules type

/-- Prints a pattern or a target with its default. -/
def withDefault (rules : Rules) (pattern value : Tree) : Printer Unit := do
  rules .item pattern
  initializer rules {} value

end Concise.Print
