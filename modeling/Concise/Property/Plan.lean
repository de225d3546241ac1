import Concise.Property.Scan

/-!
Plans: which spans are to be simplified, and how.

A plan is made of candidates before anything is changed. Carrying it out offers each property its
entry; the first property met with a planned span uses the entry up, even if it refuses.

* `Plan.ofCandidates` makes a plan; a later candidate with the same span replaces an earlier one.
* `Progress` is a plan being carried out: what is left of it, and what has been done.
* `Tree.simplify` scans a tree by classification and carries the resulting plan out.
-/

namespace Concise

/-- What to do with the property at a span. No span occurs twice. -/
abbrev Plan := List (Span × Simplification)

namespace Plan

/-- Plans a simplification; it replaces one for the same span. -/
def insert (plan : Plan) (span : Span) (simplification : Simplification) : Plan :=
  (span, simplification) :: plan.filter fun entry => entry.1 != span

/-- The simplification that is planned for a span. -/
def get? (plan : Plan) (span : Span) : Option Simplification :=
  List.lookup span plan

/-- The plan without a span. -/
def erase (plan : Plan) (span : Span) : Plan :=
  plan.filter fun entry => entry.1 != span

/-- The plan that candidates make. -/
def ofCandidates (candidates : List Candidate) : Plan :=
  candidates.foldl (fun plan c => plan.insert c.span c.simplification) []

end Plan

/-- Numbers of properties. -/
structure Counts where
  /-- The plain properties. -/
  visited : Nat := 0
  /-- The properties that became shorthand. -/
  shorthand : Nat := 0
  /-- The properties that became methods. -/
  methods : Nat := 0
deriving DecidableEq, Inhabited

namespace Counts

/-- Counts a simplification. -/
def record (counts : Counts) : Simplification → Counts
  | .shorthand => { counts with shorthand := counts.shorthand + 1 }
  | .method => { counts with methods := counts.methods + 1 }

/-- The number of simplified properties. -/
def simplified (counts : Counts) : Nat := counts.shorthand + counts.methods

/-- The sums of two counts. -/
def merge (a b : Counts) : Counts :=
  { visited := a.visited + b.visited
    shorthand := a.shorthand + b.shorthand
    methods := a.methods + b.methods }

end Counts

/-- A plan that is being carried out. -/
structure Progress where
  plan : Plan
  counts : Counts := {}
  /-- The simplifications carried out, each with the offset of its property, the last one first. -/
  done : List (Simplification × Nat) := []
deriving DecidableEq, Inhabited

namespace Progress

/-- Begins to carry out the plan that candidates make. -/
def ofCandidates (candidates : List Candidate) : Progress :=
  { plan := Plan.ofCandidates candidates }

/-- The number of entries that no property has used up. -/
def pending (progress : Progress) : Nat := progress.plan.length

/-- Offers a property its entry, which is used up. -/
def choose (p : Property) (progress : Progress) : Option Simplification × Progress :=
  match progress.plan.get? p.span with
  | none => (none, progress)
  | some s =>
      let rest := { progress with plan := progress.plan.erase p.span }
      if (p.simplified? s).isSome then
        (some s, { rest with
          counts := rest.counts.record s, done := (s, p.span.start) :: rest.done })
      else (none, rest)

end Progress

namespace Tree

/-- Carries out what is left of a plan. -/
def carryOut (tree : Tree) (progress : Progress) : Tree × Progress :=
  tree.simplifyWith Progress.choose progress

/-- What simplifying a whole tree did. -/
structure Simplified where
  tree : Tree
  counts : Counts
  /-- The simplifications carried out, in document order, each with the offset of its property. -/
  done : List (Simplification × Nat)
  /-- The number of planned simplifications that met no property. -/
  pending : Nat
deriving Inhabited

/-- Simplifies every plain property that can be. -/
def simplify (tree : Tree) : Simplified :=
  let report := tree.scan Property.classify?
  let (tree, progress) := tree.carryOut (.ofCandidates report.candidates)
  { tree
    counts := { progress.counts with visited := report.visited }
    done := progress.done.reverse
    pending := progress.pending }

end Tree

end Concise
