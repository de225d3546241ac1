/-!
Spans of source text. A span is a half-open range of byte offsets into the UTF-8 form of the text;
two places of a program are told apart by their spans.
-/

namespace Concise

/-- A half-open range of byte offsets. -/
structure Span where
  start : Nat
  stop : Nat
deriving DecidableEq, Inhabited

namespace Span

/-- The empty span at the beginning of a text. -/
def zero : Span := ⟨0, 0⟩

/-- Whether one span lies inside another. -/
def within (inner outer : Span) : Bool :=
  outer.start ≤ inner.start && inner.stop ≤ outer.stop

/-- Whether one span ends before the other begins. -/
def before (left right : Span) : Bool :=
  left.stop ≤ right.start

end Span

/-- The number of bytes that characters take in UTF-8. -/
def byteLength (cs : List Char) : Nat :=
  cs.foldl (fun n c => n + c.utf8Size) 0

end Concise
