import Concise.JsonValue
import Concise.Property.Plan

/-!
What a run logs.

* An `Event` is something worth telling; it has a level, a target and fields.
* A `LogFilter` says which events are shown. It is made of directives: a level for everything, or
  for the targets that begin in a given way. The longest beginning counts.
* An event is shown as a line of text or as a JSON object.
-/

namespace Concise

/-- How important an event is. -/
inductive LogLevel where
  | debug
  | info
  | warn
deriving DecidableEq, Inhabited

namespace LogLevel

/-- The name of a level. -/
def name : LogLevel → String
  | debug => "debug"
  | info => "info"
  | warn => "warn"

/-- The name of a level as lines show it. -/
def label : LogLevel → String
  | debug => "DEBUG"
  | info => "INFO"
  | warn => "WARN"

/-- The number of a level; smaller is more important. -/
def rank : LogLevel → Nat
  | debug => 4
  | info => 3
  | warn => 2

/-- The least important level that is shown when the arguments ask for details so many times. -/
def ofVerbosity : Nat → LogLevel
  | 0 => warn
  | 1 => info
  | _ => debug

end LogLevel

/-- Something worth telling. -/
inductive Event where
  /-- A file in a directory was left out. -/
  | ignored (path : String)
  | processing (files : Nat) (isDry : Bool)
  | simplified (simplification : Simplification) (offset : Nat)
  /-- Planned simplifications met no property. -/
  | unapplied (pending : Nat)
  | scanned (name : String) (counts : Counts)
  | transformed (path : String) (counts : Counts)
  | unmodified (path : String)
  | skipped (path reason : String)
  | failed (path message : String)
deriving DecidableEq, Inhabited

/-- The value of a field. -/
inductive FieldValue where
  /-- A text that is shown as it is. -/
  | plain (text : String)
  /-- A text that is shown in quotes. -/
  | quoted (text : String)
  | number (value : Nat)
  | boolean (value : Bool)
deriving DecidableEq, Inhabited

namespace FieldValue

/-- The spelling of a character between quotes. -/
def escape (c : Char) : List Char :=
  match c with
  | '"' => ['\\', '"']
  | '\\' => ['\\', '\\']
  | '\n' => ['\\', 'n']
  | '\r' => ['\\', 'r']
  | '\t' => ['\\', 't']
  | '\x00' => ['\\', '0']
  | c =>
      if c.toNat < 0x20 || (0x7F ≤ c.toNat && c.toNat < 0xA0) then
        '\\' :: 'u' :: '\x7b' :: (Nat.toDigits 16 c.toNat ++ ['\x7d'])
      else [c]

/-- A value in a line of text. -/
def text : FieldValue → String
  | plain value => value
  | quoted value => String.ofList ('"' :: (value.toList.flatMap escape ++ ['"']))
  | number n => toString n
  | boolean b => toString b

/-- A value in JSON. -/
def json : FieldValue → String
  | plain value => JsonValue.quote value
  | quoted value => JsonValue.quote value
  | number n => toString n
  | boolean b => toString b

end FieldValue

namespace Event

/-- The importance of an event. -/
def level : Event → LogLevel
  | ignored _ => .debug
  | processing _ _ => .info
  | simplified _ _ => .debug
  | unapplied _ => .warn
  | scanned _ _ => .debug
  | transformed _ _ => .info
  | unmodified _ => .debug
  | skipped _ _ => .info
  | failed _ _ => .warn

/-- The part of the program that an event comes from. -/
def target : Event → String
  | simplified _ _ => "object_shorthand::rewriter"
  | unapplied _ => "object_shorthand::transform"
  | scanned _ _ => "object_shorthand::transform"
  | _ => "object_shorthand_cli::runner"

/-- What an event says. -/
def message : Event → String
  | ignored _ => "ignored"
  | processing _ _ => "processing"
  | simplified _ _ => "rewrote property"
  | unapplied _ => "planned rewrites were not applied"
  | scanned _ _ => "scanned source"
  | transformed _ _ => "transformed"
  | unmodified _ => "unmodified"
  | skipped _ _ => "skipped"
  | failed _ _ => "failed"

/-- The field that stands in for the message where an event can have only one. -/
def messageField : String := "message"

/-- The fields of an event. -/
def fields : Event → List (String × FieldValue)
  | ignored path => [("path", .plain path)]
  | processing files isDry => [("files", .number files), ("dry", .boolean isDry)]
  | simplified s offset => [("kind", .quoted s.name), ("offset", .number offset)]
  | unapplied pending => [("pending", .number pending)]
  | scanned name counts =>
      [("path", .quoted name), ("visited", .number counts.visited),
        ("shorthand", .number counts.shorthand), ("methods", .number counts.methods)]
  | transformed path counts =>
      [("path", .plain path), ("shorthand", .number counts.shorthand),
        ("methods", .number counts.methods)]
  | unmodified path => [("path", .plain path)]
  | skipped path reason => [("path", .plain path), ("reason", .plain reason)]
  | failed path message => [("path", .plain path), (messageField, .plain message)]

/-- A field in a line of text; a second message has no name. -/
def fieldText (field : String × FieldValue) : String :=
  if field.1 == messageField then " " ++ field.2.text
  else " " ++ field.1 ++ "=" ++ field.2.text

/-- An event as a line of text. -/
def text (event : Event) : String :=
  let label := event.level.label
  String.ofList (List.replicate (6 - label.length) ' ') ++ label ++ " " ++ event.message ++
    String.join (event.fields.map fieldText)

/-- An event as a JSON object; a second message replaces the first. -/
def json (event : Event) : String :=
  let named := event.fields.map fun (name, value) => (name, value.json)
  let message := if named.any (·.1 == messageField) then [] else
    [(messageField, JsonValue.quote event.message)]
  JsonValue.writeObject
    [("level", JsonValue.quote event.level.label),
      ("fields", JsonValue.writeObject (message ++ named)),
      ("target", JsonValue.quote event.target)]

end Event

/-! ### Filters -/

/-- A rule on what is shown. -/
structure Directive where
  /-- How the targets begin that the rule is about; every target if there is none. -/
  target : Option String
  /-- The greatest rank that is shown. -/
  threshold : Nat
deriving DecidableEq, Inhabited

namespace Directive

/-- The rank that a name or a digit stands for. -/
def threshold? (text : String) : Option Nat :=
  match text.toLower with
  | "off" => some 0
  | "error" => some 1
  | "warn" => some 2
  | "info" => some 3
  | "debug" => some 4
  | "trace" => some 5
  | "0" => some 0
  | "1" => some 1
  | "2" => some 2
  | "3" => some 3
  | "4" => some 4
  | "5" => some 5
  | _ => none

/-- Whether a text can be the beginning of a target. -/
def isTarget (text : String) : Bool :=
  !text.isEmpty && text.toList.all fun c => c.isAlphanum || c == '_' || c == ':' || c == '-'

/-- Reads a directive. A target without a level shows everything of it. -/
def parse? (text : String) : Option Directive :=
  match threshold? text with
  | some threshold => some { target := none, threshold }
  | none =>
      match (text.toList.splitOn '=').map String.ofList with
      | [target] => everything? target
      | [target, ""] => everything? target
      | [target, level] =>
          if isTarget target then
            (threshold? level).map fun threshold => { target := some target, threshold }
          else none
      | _ => none
where
  everything? (target : String) : Option Directive :=
    if isTarget target then some { target := some target, threshold := 5 } else none

/-- How much of a target a directive fixes. -/
def reach (directive : Directive) : Nat := (directive.target.getD "").length

/-- Whether a directive is about a target. -/
def concerns (directive : Directive) (target : String) : Bool :=
  target.startsWith (directive.target.getD "")

end Directive

/-- Which events are shown. -/
abbrev LogFilter := List Directive

namespace LogFilter

/-- The filter that shows a level and what is more important. -/
def ofLevel (level : LogLevel) : LogFilter := [{ target := none, threshold := level.rank }]

/-- Reads directives between commas; those that cannot be read are left out. -/
def parse (text : String) : LogFilter :=
  (text.toList.splitOn ',').filterMap fun part => Directive.parse? (String.ofList part)

/-- The directive that decides about a target: the one that fixes most of it, the later of equals.
-/
def directive? (filter : LogFilter) (target : String) : Option Directive :=
  (filter.filter fun d => d.concerns target).foldl best none
where
  best (found : Option Directive) (d : Directive) : Option Directive :=
    match found with
    | some other => if other.reach ≤ d.reach then some d else some other
    | none => some d

/-- Whether an event is shown. -/
def shows (filter : LogFilter) (event : Event) : Bool :=
  match filter.directive? event.target with
  | some d => event.level.rank ≤ d.threshold
  | none => false

end LogFilter

/-- How events are shown. -/
inductive LogFormat where
  | text
  | json
deriving DecidableEq, Inhabited

namespace LogFormat

/-- The format with a name, whatever its case; text if there is none. -/
def ofName (name : String) : LogFormat := if name.toLower == "json" then json else text

end LogFormat

/-- A line of the log. -/
inductive LogLine where
  | text (line : String)
  /-- An object of its own. -/
  | json (line : String)
deriving DecidableEq, Inhabited

/-- An event as a line. -/
def Event.line (event : Event) : LogFormat → LogLine
  | .text => .text event.text
  | .json => .json event.json

end Concise
