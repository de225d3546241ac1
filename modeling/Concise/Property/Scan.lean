import Concise.Property.Simplification

/-!
Scanning: which properties of a tree are to be simplified, and how.

A scan offers every plain property to a selector, in document order, and keeps those that the
selector accepts. Properties of another form are not offered, but what stands inside them is.
-/

namespace Concise

/-- A property that has been selected, by its place. -/
structure Candidate where
  span : Span
  /-- The text of the key; empty if the key has no view. -/
  name : String
  simplification : Simplification
deriving DecidableEq, Inhabited

/-- What a scan found. -/
structure Findings where
  /-- The number of plain properties. -/
  visited : Nat := 0
  /-- The selected properties, in document order. -/
  candidates : List Candidate := []
deriving DecidableEq, Inhabited

/-- Chooses simplifications for properties, perhaps depending on the properties it saw before. -/
abbrev Selector (σ : Type) := Property → σ → Option Simplification × σ

namespace Selector

/-- A selector without a state. -/
def pure (select : Property → Option Simplification) : Selector Unit :=
  fun p s => (select p, s)

end Selector

/-- The candidate that a property becomes. -/
def Property.candidate (p : Property) (simplification : Simplification) : Candidate :=
  { span := p.span, name := (p.keyView?.map Key.text).getD "", simplification }

namespace Findings

/-- Counts a property that was offered, and adds it if it was selected. Candidates are kept in
reverse during a scan. -/
def add (findings : Findings) (p : Property) (chosen : Option Simplification) : Findings :=
  { visited := findings.visited + 1
    candidates :=
      match chosen with
      | some s => p.candidate s :: findings.candidates
      | none => findings.candidates }

end Findings

namespace Tree

mutual

/-- Scans a tree, adding to findings whose candidates are reversed. -/
def scanFrom {σ : Type} (select : Selector σ) : Tree → Findings × σ → Findings × σ
  | reference _ _, seen => seen
  | property span form key value, (findings, s) =>
      let seen :=
        if form.isPlain then
          let (chosen, s) := select ⟨span, form, key, value⟩ s
          (findings.add ⟨span, form, key, value⟩ chosen, s)
        else (findings, s)
      value.scanFrom select (key.scanFrom select seen)
  | function _ _ typeParameters this parameters returned body, seen =>
      body.scanFrom select (returned.scanFrom select (parameters.scanFrom select
        (this.scanFrom select (typeParameters.scanFrom select seen))))
  | node _ _ parts, seen => scanAllFrom select parts seen

/-- Scans some trees. -/
def scanAllFrom {σ : Type} (select : Selector σ) : List Tree → Findings × σ → Findings × σ
  | [], seen => seen
  | t :: ts, seen => scanAllFrom select ts (t.scanFrom select seen)

end

/-- Scans a tree with a selector that starts in the given state. -/
def scanWith {σ : Type} (select : Selector σ) (initial : σ) (tree : Tree) : Findings × σ :=
  let (findings, s) := tree.scanFrom select ({}, initial)
  ({ findings with candidates := findings.candidates.reverse }, s)

/-- Scans a tree with a selector without a state. -/
def scan (select : Property → Option Simplification) (tree : Tree) : Findings :=
  (tree.scanWith (.pure select) ()).1

end Tree

end Concise
