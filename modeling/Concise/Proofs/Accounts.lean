import Mathlib.Algebra.Ring.Nat
import Mathlib.Data.List.Induction
import Concise.Command
import Concise.Proofs.Interleaving
import Concise.Proofs.Transforming

/-!
What the command accounts for.

* `Summary.Tallies`: a summary counts reports by their outcome and adds up their counts.
  `Summary.Tallies.add` is one more report, `Summary.tallies_ofReports` all of them.
* `Pool.RiskyStep`: workers whose writes may fail. `Pool.IsAccountable` is what holds of them at any
  moment, `Pool.IsAccountable.riskyStep` the step and `Pool.isAccountable_of_riskySteps` the whole
  run, in whichever order the steps came.
* `Command.perform_accounts` (**a failed command leaves the files alone, and a completed one
  accounts for every file**).
-/

namespace Concise

open Relation (ReflTransGen)

/-! ### Summaries -/

namespace Outcome

/-- The counts of a file in which something was simplified. -/
def counts? : Outcome → Option Counts
  | ok counts => some counts
  | _ => none

/-- The file is in no dialect. -/
def isSkipped : Outcome → Bool
  | skipped _ => true
  | _ => false

/-- The file failed. -/
def isError : Outcome → Bool
  | error _ => true
  | _ => false

end Outcome

namespace Summary

/-- The counts of the files in which something was simplified. -/
def okCounts (reports : List Report) : List Counts := reports.filterMap (·.outcome.counts?)

/-- The totals are those of the reports. -/
structure Tallies (summary : Summary) (reports : List Report) : Prop where
  ok_eq : summary.ok = reports.countP (·.outcome.counts?.isSome)
  unmodified_eq : summary.unmodified = reports.countP (·.outcome = .unmodified)
  skipped_eq : summary.skipped = reports.countP (·.outcome.isSkipped)
  errors_eq : summary.errors = reports.countP (·.outcome.isError)
  visited_eq : summary.counts.visited = ((okCounts reports).map (·.visited)).sum
  shorthand_eq : summary.counts.shorthand = ((okCounts reports).map (·.shorthand)).sum
  methods_eq : summary.counts.methods = ((okCounts reports).map (·.methods)).sum

variable {summary : Summary} {reports : List Report}

lemma okCounts_append (reports others : List Report) :
    okCounts (reports ++ others) = okCounts reports ++ okCounts others :=
  List.filterMap_append

/-- **One more report**: exactly one of the four outcomes is counted. -/
lemma Tallies.add (h : summary.Tallies reports) (report : Report) :
    (summary.add report).Tallies (reports ++ [report]) := by
  obtain ⟨hok, hunmodified, hskipped, herrors, hvisited, hshorthand, hmethods⟩ := h
  obtain ⟨path, outcome, output⟩ := report
  -- the earlier reports are in the totals; what is left speaks of the last one alone
  constructor <;>
    simp only [List.countP_append, okCounts_append, List.map_append, List.sum_append, ← hok,
      ← hunmodified, ← hskipped, ← herrors, ← hvisited, ← hshorthand, ← hmethods]
  all_goals cases outcome <;> rfl

/-- **All reports.** -/
lemma tallies_ofReports (reports : List Report) : (ofReports reports).Tallies reports := by
  have hfold : (reports.foldl add {}).Tallies reports := by
    induction reports using List.reverseRecOn with
    | nil => exact ⟨rfl, rfl, rfl, rfl, rfl, rfl, rfl⟩
    | append_singleton reports report ih =>
        rw [List.foldl_append]
        exact ih.add report
  exact { hfold with }

/-- Every report is counted once. -/
lemma Tallies.total (h : summary.Tallies reports) :
    summary.ok + summary.unmodified + summary.skipped + summary.errors = reports.length := by
  rw [h.ok_eq, h.unmodified_eq, h.skipped_eq, h.errors_eq]
  clear h
  induction reports with
  | nil => rfl
  | cons report reports ih =>
      simp only [List.countP_cons, List.length_cons, ← ih]
      cases report.outcome <;> simp [Outcome.counts?, Outcome.isSkipped, Outcome.isError] <;> omega

/-- A summary accounts for paths: there is one report for each of them, in their order, the totals
are those of the reports, a report of simplifications tells of at least one, and the exit code
tells whether a file failed. -/
structure Accounts (summary : Summary) (paths : List Path) : Prop
    extends summary.Tallies summary.reports where
  paths_eq : summary.reports.map (·.path) = paths
  total : summary.ok + summary.unmodified + summary.skipped + summary.errors = paths.length
  simplified_pos : ∀ report ∈ summary.reports, ∀ counts, report.outcome = .ok counts →
    1 ≤ counts.simplified
  exitCode_eq : (Completion.files summary).exitCode =
    if ∃ report ∈ summary.reports, report.outcome.isError then 1 else 0

/-- Reports on paths, summed up, account for them. -/
lemma accounts_ofReports {paths : List Path} (hpaths : reports.map (·.path) = paths)
    (hpos : ∀ report ∈ reports, ∀ counts, report.outcome = .ok counts → 1 ≤ counts.simplified) :
    (ofReports reports).Accounts paths := by
  have htallies := tallies_ofReports reports
  have herrors : (ofReports reports).hasErrors = true ↔
      ∃ report ∈ reports, report.outcome.isError := by
    rw [hasErrors, htallies.errors_eq, decide_eq_true_eq, List.countP_pos_iff]
  refine { htallies with
    paths_eq := hpaths
    total := ?_
    simplified_pos := hpos
    exitCode_eq := if_congr herrors rfl rfl }
  rw [htallies.total, ← hpaths, List.length_map]

end Summary

/-! ### Workers -/

/-- What a worker has decided comes from some reading of its file, and what it has reported is about
its path; if the report tells of simplifications, there is at least one. -/
def Worker.IsAccountable (settings : Settings) (worker : Worker) : Prop :=
  match worker.stage with
  | .waiting | .holding _ => True
  | .decided treatment => ∃ result, treatment = Treatment.ofRead settings worker.path result
  | .finished report => report.path = worker.path ∧
      ∀ counts, report.outcome = .ok counts → 1 ≤ counts.simplified

namespace Pool

/-- A step of one of the workers, where writing a file may fail. Then the worker reports so, and
nothing is known about the files. -/
inductive RiskyStep (settings : Settings) : Pool → Pool → Prop
  | step {pool next : Pool} (h : Step settings pool next) : RiskyStep settings pool next
  | failToWrite (fs fs' : FileSystem) (before after : List Worker) (path : Path)
      (treatment : Treatment) (reason : String) (hwritten : treatment.written.isSome) :
      RiskyStep settings ⟨fs, before ++ ⟨path, .decided treatment⟩ :: after⟩
        ⟨fs', before ++ ⟨path, .finished
          { path, outcome := .error ("failed to write " ++ path ++ ": " ++ reason) }⟩ :: after⟩

/-- What holds of the workers at any moment. -/
structure IsAccountable (settings : Settings) (paths : List Path) (pool : Pool) : Prop where
  paths_eq : pool.workers.map (·.path) = paths
  isAccountable : ∀ worker ∈ pool.workers, worker.IsAccountable settings

variable {settings : Settings} {fs fs' : FileSystem} {paths : List Path} {pool next : Pool}

lemma isAccountable_start : (start fs paths).IsAccountable settings paths where
  paths_eq := map_path_start
  isAccountable := by
    intro worker hworker
    obtain ⟨path, -, rfl⟩ := List.mem_map.mp hworker
    trivial

/-- One worker may get ahead. -/
lemma IsAccountable.replace {before after : List Worker} {path : Path} {stage stage' : Stage}
    (h : IsAccountable settings paths ⟨fs, before ++ ⟨path, stage⟩ :: after⟩)
    (hworker : Worker.IsAccountable settings ⟨path, stage'⟩) :
    IsAccountable settings paths ⟨fs', before ++ ⟨path, stage'⟩ :: after⟩ where
  paths_eq := by
    rw [← h.paths_eq]
    simp
  isAccountable := by
    have hall := h.isAccountable
    simp only [List.forall_mem_append, List.forall_mem_cons] at hall ⊢
    exact ⟨hall.1, hworker, hall.2.2⟩

/-- **The step.** -/
lemma IsAccountable.riskyStep (h : pool.IsAccountable settings paths)
    (hstep : RiskyStep settings pool next) : next.IsAccountable settings paths := by
  cases hstep with
  | step hstep =>
      cases hstep with
      | read fs before after path => exact h.replace trivial
      | decide fs before after path result => exact h.replace ⟨result, rfl⟩
      | write fs before after path treatment =>
          have hdecided : ∃ result, treatment = Treatment.ofRead settings path result :=
            h.isAccountable ⟨path, .decided treatment⟩ (by simp)
          obtain ⟨result, rfl⟩ := hdecided
          -- whatever was read, only a changed file is reported as simplified
          refine h.replace ⟨Treatment.path_report, fun counts houtcome => ?_⟩
          obtain ⟨source, t, -, ht, hchanged, rfl⟩ := Treatment.outcome_eq_ok_iff.mp houtcome
          exact simplified_pos_of_transformFile ht hchanged
  | failToWrite fs fs' before after path treatment reason =>
      exact h.replace ⟨rfl, fun counts houtcome => by cases houtcome⟩

/-- **The whole run**, whatever the order of the steps and whichever writes fail. -/
lemma isAccountable_of_riskySteps
    (h : ReflTransGen (RiskyStep settings) (start fs paths) pool) :
    pool.IsAccountable settings paths := by
  induction h with
  | refl => exact isAccountable_start
  | tail _ hstep ih => exact ih.riskyStep hstep

/-- Once all workers have finished, the summary of their reports accounts for the paths. -/
lemma IsAccountable.accounts (h : pool.IsAccountable settings paths) (hfinished : pool.IsFinished) :
    (Summary.ofReports pool.reports).Accounts paths := by
  have hreport : ∀ worker ∈ pool.workers, ∃ report, worker.report? = some report ∧
      report.path = worker.path ∧
      ∀ counts, report.outcome = .ok counts → 1 ≤ counts.simplified := by
    intro worker hworker
    obtain ⟨report, hreport⟩ := Option.isSome_iff_exists.mp (hfinished worker hworker)
    have haccountable := h.isAccountable worker hworker
    obtain ⟨path, stage⟩ := worker
    cases stage with
    | finished report' =>
        obtain rfl := Option.some.inj hreport
        exact ⟨_, rfl, haccountable⟩
    | _ => cases hreport
  refine Summary.accounts_ofReports ?_ ?_
  · rw [reports, ← h.paths_eq, List.map_filterMap, ← List.filterMap_eq_map]
    refine List.filterMap_congr fun worker hworker => ?_
    obtain ⟨report, hreport, hpath, -⟩ := hreport worker hworker
    rw [hreport, Option.map_some, hpath]
    rfl
  · intro report hmem
    obtain ⟨worker, hworker, hsome⟩ := List.mem_filterMap.mp hmem
    obtain ⟨report', hreport, -, hpos⟩ := hreport worker hworker
    obtain rfl := Option.some.inj (hsome.symm.trans hreport)
    exact hpos

end Pool

/-- Processing files one after the other accounts for them. -/
lemma FileSystem.accounts_run (fs : FileSystem) (settings : Settings) (paths : List Path) :
    (fs.run settings paths).summary.Accounts paths := by
  have hsteps : ReflTransGen (Pool.RiskyStep settings) (Pool.start fs paths)
      (Pool.ofTreatments (fs.processAll settings paths).2 (fs.processAll settings paths).1 []) :=
    ReflTransGen.mono (fun _ _ => Pool.RiskyStep.step) _ _ (Pool.steps_processAll fs [] paths)
  have haccounts := (Pool.isAccountable_of_riskySteps hsteps).accounts
    (Pool.isFinished_ofTreatments _ _)
  rwa [Pool.reports_ofTreatments] at haccounts

/-! ### The command -/

namespace Command

variable {surroundings : Surroundings} {fs : FileSystem} {arguments : Arguments}
  {settings : Settings}

/-- No stage that can fail comes after one that writes. -/
lemma files_of_error {e : CommandError}
    (h : (perform surroundings fs arguments).result = .error e) :
    (perform surroundings fs arguments).files = fs := by
  revert h
  unfold perform transformInput processFiles
  split
  · exact fun _ => rfl
  · split
    · split
      · exact fun _ => rfl
      · split <;> exact fun _ => rfl
    · dsimp only
      split
      · exact fun _ => rfl
      · split
        · exact fun _ => rfl
        · exact nofun

/-- **When the command completes with the files**: every stage before them has succeeded. -/
lemma result_eq_ok_iff (hstdin : arguments.readsStdin = false) {completion : Completion} :
    (perform surroundings fs arguments).result = .ok completion ↔
      ∃ settings paths, Command.settings fs arguments = .ok settings ∧
        Discovery.collect settings fs arguments.paths = .ok paths ∧
        arguments.workers.bind surroundings.workerFault? = none ∧
        completion = .files (fs.run settings paths).summary := by
  unfold perform
  cases hsettings : Command.settings fs arguments with
  | error e => simp
  | ok settings =>
      simp only [hstdin, Bool.false_eq_true, if_false, processFiles]
      cases hcollect : Discovery.collect settings fs arguments.paths with
      | error failure => simp [hcollect]
      | ok paths =>
          cases hworkers : arguments.workers.bind surroundings.workerFault? with
          | some reason => simp
          | none => simp [hcollect, eq_comm]

/-- **A failed command leaves the files alone, and a completed one accounts for every file.** If the
settings can be made, all paths exist and the workers can be started, the command completes; then
its summary accounts for the files that were collected. The same is true of workers that process
them side by side, in any order, even if some cannot write. -/
theorem perform_accounts (surroundings : Surroundings) (fs : FileSystem) (arguments : Arguments) :
    (∀ e, (perform surroundings fs arguments).result = .error e →
      (perform surroundings fs arguments).files = fs) ∧
    (arguments.readsStdin = false →
      (∀ completion, (perform surroundings fs arguments).result = .ok completion →
        ∃ settings paths summary, Command.settings fs arguments = .ok settings ∧
          Discovery.collect settings fs arguments.paths = .ok paths ∧
          completion = .files summary ∧ summary.Accounts paths) ∧
      ∀ settings paths, Command.settings fs arguments = .ok settings →
        Discovery.collect settings fs arguments.paths = .ok paths →
        arguments.workers.bind surroundings.workerFault? = none →
        (∃ summary, (perform surroundings fs arguments).result = .ok (.files summary)) ∧
        ∀ pool, ReflTransGen (Pool.RiskyStep settings) (Pool.start fs paths) pool →
          pool.IsFinished → (Summary.ofReports pool.reports).Accounts paths) := by
  refine ⟨fun _ => files_of_error, fun hstdin => ⟨?_, ?_⟩⟩
  · intro completion hresult
    obtain ⟨settings, paths, hsettings, hcollect, -, rfl⟩ := (result_eq_ok_iff hstdin).mp hresult
    exact ⟨settings, paths, _, hsettings, hcollect, rfl, fs.accounts_run settings paths⟩
  · intro settings paths hsettings hcollect hworkers
    constructor
    · exact ⟨_, (result_eq_ok_iff hstdin).mpr ⟨settings, paths, hsettings, hcollect, hworkers, rfl⟩⟩
    · exact fun pool hsteps => (Pool.isAccountable_of_riskySteps hsteps).accounts

/-- The arguments for some paths. -/
def argumentsFor (paths : List Path) : Arguments := { (default : Arguments) with paths }

/-- All outcomes occur in one run of the command. With a path that leads nowhere it fails, and the
files, one of which would have been simplified, are as they were. -/
theorem perform_accounts_mixedTree :
    (∃ summary, (perform {} mixedTree (argumentsFor mixedPaths.dropLast)).result =
        .ok (.files summary) ∧ summary.Accounts mixedPaths.dropLast ∧
        (summary.ok, summary.unmodified, summary.skipped, summary.errors) = (1, 1, 1, 2) ∧
        (Completion.files summary).exitCode = 1) ∧
      (perform {} mixedTree (argumentsFor mixedPaths)).result =
        .error (.discovery (.missing "f.js")) ∧
      (perform {} mixedTree (argumentsFor mixedPaths)).files = mixedTree := by
  have hsettings : Command.settings mixedTree (argumentsFor mixedPaths.dropLast) =
      .ok Settings.default := by decide +kernel
  have hcollect : Discovery.collect Settings.default mixedTree mixedPaths.dropLast =
      .ok mixedPaths.dropLast := by
    have hgather : (Discovery.gather Settings.default mixedTree mixedPaths.dropLast).2 =
        .ok mixedPaths.dropLast := by decide +kernel
    have hsorted : Discovery.sorted mixedPaths.dropLast = mixedPaths.dropLast := by
      rw [Discovery.sorted, List.mergeSort_of_pairwise (by decide +kernel)]
      decide +kernel
    rw [Discovery.collect, hgather, Except.map, hsorted]
  have hresult : (perform {} mixedTree (argumentsFor mixedPaths.dropLast)).result =
      .ok (.files (mixedTree.run .default mixedPaths.dropLast).summary) :=
    (result_eq_ok_iff (by decide)).mpr ⟨_, _, hsettings, hcollect, rfl, rfl⟩
  have hmissing : (perform {} mixedTree (argumentsFor mixedPaths)).result =
      .error (.discovery (.missing "f.js")) := by decide +kernel
  refine ⟨⟨_, hresult, ?_, by decide +kernel, by decide +kernel⟩, hmissing,
    (perform_accounts {} mixedTree (argumentsFor mixedPaths)).1 _ hmissing⟩
  obtain ⟨settings, paths, summary, hsettings', hcollect', hsummary, haccounts⟩ :=
    ((perform_accounts {} mixedTree (argumentsFor mixedPaths.dropLast)).2 (by decide)).1 _ hresult
  obtain rfl := Except.ok.inj (hsettings.symm.trans hsettings')
  obtain rfl := Except.ok.inj (hcollect.symm.trans hcollect')
  obtain rfl := Completion.files.inj hsummary
  exact haccounts

end Command

end Concise
