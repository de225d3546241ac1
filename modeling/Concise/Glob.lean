/-!
Glob patterns.

* `?` stands for any character, `*` for any characters, slashes and dots included.
* `[abc]`, `[a-z]` and `[!abc]` stand for one character; a closing bracket right after the opening
  one, or after the exclamation mark, is an ordinary character.
* `**` stands for any number of whole path components and has to be a component itself.

`Glob.escape` makes the pattern that only a given text matches.
-/

namespace Concise

namespace Glob

/-- What a set of characters holds. -/
inductive Range where
  | single (c : Char)
  | between (first last : Char)
deriving DecidableEq, Inhabited

/-- Whether a character is in a range. -/
def Range.contains (c : Char) : Range → Bool
  | single d => c == d
  | between first last => first ≤ c && c ≤ last

/-- A part of a pattern. -/
inductive Token where
  | char (c : Char)
  | anyChar
  | anySequence
  | anyComponents
  | oneOf (ranges : List Range)
  | noneOf (ranges : List Range)
deriving DecidableEq, Inhabited

/-- What is wrong with a pattern. -/
inductive Fault where
  | invalidRange
  | tooManyStars
  | misplacedStars
deriving DecidableEq, Inhabited

/-- The text of a fault. -/
def Fault.message : Fault → String
  | invalidRange => "invalid range pattern"
  | tooManyStars => "wildcards are either regular `*` or recursive `**`"
  | misplacedStars => "recursive wildcards must form a single path component"

/-- A fault and where it was met, in characters. -/
structure Error where
  position : Nat
  fault : Fault
deriving DecidableEq, Inhabited

/-- The text of an error. -/
def Error.message (e : Error) : String :=
  "Pattern syntax error near position " ++ toString e.position ++ ": " ++ e.fault.message

/-! ### Reading -/

/-- The ranges that the text between brackets writes. -/
def ranges : List Char → List Range
  | a :: '-' :: b :: rest => .between a b :: ranges rest
  | a :: rest => .single a :: ranges rest
  | [] => []

/-- Splits a text after its first character at the first closing bracket. -/
def splitSet? : List Char → Option (List Char × List Char)
  | first :: rest =>
      match rest.span (· != ']') with
      | (inner, _ :: after) => some (first :: inner, after)
      | (_, []) => none
  | [] => none

/-- Reads a set of characters after its opening bracket. -/
def set? : List Char → Option (Token × List Char)
  | '!' :: rest => (splitSet? rest).map fun (inner, after) => (.noneOf (ranges inner), after)
  | rest => (splitSet? rest).map fun (inner, after) => (.oneOf (ranges inner), after)

/-- The component wildcard after its two stars at the given position; `follows` says whether it
begins a component. -/
def components (follows : Bool) (position : Nat) (rest : List Char) :
    Except Error (List Char) :=
  if !follows then .error ⟨position - 1, .misplacedStars⟩
  else
    match rest with
    | [] => .ok []
    | '/' :: after => .ok after
    | _ => .error ⟨position + 2, .misplacedStars⟩

/-- Reads a pattern from a position on; `follows` says whether a component begins there. -/
def read : Nat → Bool → Nat → List Char → Except Error (List Token)
  | 0, _, _, _ => .ok []
  | _ + 1, _, _, [] => .ok []
  | n + 1, follows, position, c :: rest =>
      match c with
      | '?' => do return .anyChar :: (← read n false (position + 1) rest)
      | '*' =>
          match rest with
          | '*' :: '*' :: _ => .error ⟨position + 2, .tooManyStars⟩
          | '*' :: rest => do
              let after ← components follows position rest
              let taken := rest.length - after.length
              return .anyComponents :: (← read n (taken != 0) (position + 2 + taken) after)
          | _ => do return .anySequence :: (← read n false (position + 1) rest)
      | '[' =>
          match set? rest with
          | some (token, after) => do
              let taken := rest.length - after.length
              return token :: (← read n false (position + 1 + taken) after)
          | none => .error ⟨position, .invalidRange⟩
      | c => do return .char c :: (← read n (c == '/') (position + 1) rest)

/-! ### Matching -/

/-- The endings of a list, the list itself first. -/
def endings {α : Type} : List α → List (List α)
  | [] => [[]]
  | x :: xs => (x :: xs) :: endings xs

/-- The endings of a path that begin a component, and the empty one. -/
def componentEndings : List Char → List (List Char)
  | [] => [[]]
  | c :: cs => if c == '/' then cs :: componentEndings cs else componentEndings cs

/-- Whether a token stands for a character. -/
def Token.covers (c : Char) : Token → Bool
  | char d => c == d
  | anyChar => true
  | oneOf ranges => ranges.any (·.contains c)
  | noneOf ranges => !ranges.any (·.contains c)
  | anySequence => false
  | anyComponents => false

/-- The character that a token is, if it is one. -/
def Token.char? : Token → Option Char
  | char c => some c
  | _ => none

/-- Whether tokens stand for a whole text. -/
def matchesAll : List Token → List Char → Bool
  | [], cs => cs.isEmpty
  | .anySequence :: tokens, cs => (endings cs).any (matchesAll tokens)
  | .anyComponents :: tokens, cs => (cs :: componentEndings cs).any (matchesAll tokens)
  | _ :: _, [] => false
  | token :: tokens, c :: cs => token.covers c && matchesAll tokens cs

end Glob

/-- A pattern for paths. -/
structure Glob where
  text : String
  tokens : List Glob.Token
deriving DecidableEq, Inhabited

namespace Glob

/-- Reads a pattern. -/
def parse (text : String) : Except Error Glob := do
  let cs := text.toList
  return { text, tokens := ← read (cs.length + 1) true 0 cs }

/-- Whether a pattern matches a whole path. -/
def matchesPath (glob : Glob) (path : String) : Bool := matchesAll glob.tokens path.toList

/-- The text that a pattern stands for, if it has no wildcards. -/
def plain? (glob : Glob) : Option String :=
  (glob.tokens.mapM Token.char?).map String.ofList

/-- Whether a pattern has the wildcard for components. -/
def isRecursive (glob : Glob) : Bool := glob.tokens.contains .anyComponents

/-! ### Escaping -/

/-- Whether a character means something else than itself in patterns. -/
def isSpecial (c : Char) : Bool := c == '?' || c == '*' || c == '[' || c == ']'

/-- How a character is written so that it stands for itself. -/
def escapeChar (c : Char) : List Char := if isSpecial c then ['[', c, ']'] else [c]

/-- The pattern for a text: what means something else than itself is put in brackets. -/
def escape (text : String) : String := String.ofList (text.toList.flatMap escapeChar)

end Glob

end Concise
