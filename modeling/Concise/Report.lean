import Concise.Path
import Concise.Property.Plan

/-!
Reports on files, and the summary of a run.
-/

namespace Concise

/-- What happened to a file. -/
inductive Outcome where
  /-- Something was simplified. -/
  | ok (counts : Counts)
  | unmodified
  /-- The file is in no dialect. -/
  | skipped (reason : String)
  | error (message : String)
deriving DecidableEq, Inhabited

/-- What happened to which file. -/
structure Report where
  path : Path
  outcome : Outcome
  /-- The transformed source, if it is to be printed. -/
  output : Option String := none
deriving DecidableEq, Inhabited

/-- The totals of a run. -/
structure Summary where
  reports : List Report := []
  ok : Nat := 0
  unmodified : Nat := 0
  skipped : Nat := 0
  errors : Nat := 0
  counts : Counts := {}
deriving DecidableEq, Inhabited

namespace Summary

/-- Counts one more report. -/
def add (summary : Summary) (report : Report) : Summary :=
  match report.outcome with
  | .ok counts => { summary with ok := summary.ok + 1, counts := summary.counts.merge counts }
  | .unmodified => { summary with unmodified := summary.unmodified + 1 }
  | .skipped _ => { summary with skipped := summary.skipped + 1 }
  | .error _ => { summary with errors := summary.errors + 1 }

/-- The summary of reports. -/
def ofReports (reports : List Report) : Summary :=
  { reports.foldl add {} with reports }

/-- Whether a file failed. -/
def hasErrors (summary : Summary) : Bool := 0 < summary.errors

/-- The totals in one line. -/
def line (summary : Summary) : String :=
  "Results: " ++ toString summary.errors ++ " errors, " ++
    toString summary.unmodified ++ " unmodified, " ++
    toString summary.skipped ++ " skipped, " ++
    toString summary.ok ++ " ok (" ++
    toString summary.counts.shorthand ++ " shorthand properties, " ++
    toString summary.counts.methods ++ " methods)"

end Summary

end Concise
