import Concise.Text.IdentifierRanges

/-!
Identifier names: the texts that may be written bare where a property name is expected.

* The first character is an ASCII letter, `_`, `$` or a letter of another script (`isStart`).
* Every further character may also be a digit, a combining mark, a connector, or one of the two
  joiners U+200C and U+200D (`isPart`).

Reserved words are identifier names like any other: only the shape of the text matters here.
-/

namespace Concise.Identifier

/-- Whether a code point lies in one of the ranges. -/
def inRanges (ranges : List (Nat × Nat)) (n : Nat) : Bool :=
  ranges.any fun r => r.1 ≤ n && n ≤ r.2

/-- ASCII letters, `_` and `$`. -/
def isAsciiStart (c : Char) : Bool :=
  ('a' ≤ c && c ≤ 'z') || ('A' ≤ c && c ≤ 'Z') || c == '_' || c == '$'

/-- ASCII digits. -/
def isAsciiDigit (c : Char) : Bool :=
  '0' ≤ c && c ≤ '9'

/-- The characters that may begin an identifier name. -/
def isStart (c : Char) : Bool :=
  if c.toNat < 0x80 then isAsciiStart c else inRanges letterRanges c.toNat

/-- The characters that may follow in an identifier name. -/
def isPart (c : Char) : Bool :=
  if c.toNat < 0x80 then isAsciiStart c || isAsciiDigit c
  else
    inRanges letterRanges c.toNat || inRanges markRanges c.toNat ||
      c.toNat == 0x200c || c.toNat == 0x200d

/-- Whether the characters spell an identifier name. -/
def isName : List Char → Bool
  | [] => false
  | c :: cs => isStart c && cs.all isPart

/-- Whether a text can be written as a bare property name. -/
def isPropertyName (text : String) : Bool :=
  isName text.toList

/-- A character that may begin a name may also follow in one. -/
theorem isPart_of_isStart {c : Char} (h : isStart c = true) : isPart c = true := by
  unfold isStart at h
  unfold isPart
  split at h <;> simp_all

@[simp] theorem isName_cons (c : Char) (cs : List Char) :
    isName (c :: cs) = (isStart c && cs.all isPart) := rfl

end Concise.Identifier
