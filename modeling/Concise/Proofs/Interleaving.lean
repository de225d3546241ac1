import Mathlib.Algebra.Ring.Nat
import Mathlib.Data.List.Forall2
import Mathlib.Logic.Relation
import Concise.Proofs.Treatments

/-!
Processing files side by side.

* `Pool`: workers that share the files, each with one path. A `Pool.Step` lets one of them read its
  file, decide what to do with it, or do so and report. Nothing is said about the order.
* `Pool.IsSound`: what a pool looks like at any moment if its paths lead to different files. Every
  worker has seen its file as it was in the beginning, and the files are the ones of the beginning
  with the texts of the workers that have finished. A step keeps this (`Pool.IsSound.step`).
* `Pool.steps_processAll`: processing the files one after the other is one of the ways.
* `Pool.steps_eq_run`: all ways end with the same reports and the same files.
* `FileSystem.run_dry`: a dry run tells what a run will do.
-/

namespace Concise

open Relation (ReflTransGen)

/-! ### Files apart -/

namespace FileSystem

/-- No two of the paths lead to the same file. -/
def IsApart (fs : FileSystem) (paths : List Path) : Prop :=
  paths.Pairwise fun a b => fs.fileAt? a = fs.fileAt? b → fs.fileAt? a = none

instance (fs : FileSystem) (paths : List Path) : Decidable (fs.IsApart paths) :=
  inferInstanceAs (Decidable (List.Pairwise _ _))

/-- The text that processing paths leaves at a location. -/
def newText (fs : FileSystem) (settings : Settings) (paths : List Path) (location : Location) :
    Option String :=
  paths.findSome? fun path =>
    if fs.fileAt? path = some location then (fs.treat settings path).written else none

variable {fs : FileSystem} {settings : Settings} {path : Path} {paths before after : List Path}
  {location : Location}

lemma newText_append : fs.newText settings (before ++ after) location =
    (fs.newText settings before location).or (fs.newText settings after location) :=
  List.findSome?_append

lemma newText_eq_none (h : ∀ path ∈ paths, fs.fileAt? path ≠ some location) :
    fs.newText settings paths location = none :=
  List.findSome?_eq_none_iff.mpr fun path hpath => if_neg (h path hpath)

lemma IsApart.fileAt?_ne (h : fs.IsApart (before ++ path :: after))
    (hfile : fs.fileAt? path = some location) :
    ∀ other ∈ before ++ after, fs.fileAt? other ≠ some location := by
  obtain ⟨-, hafter, hbefore⟩ := List.pairwise_append.mp h
  intro other hmem hother
  have hsame : fs.fileAt? other = fs.fileAt? path := hother.trans hfile.symm
  rcases List.mem_append.mp hmem with hmem | hmem
  · have hnone := hbefore other hmem path List.mem_cons_self hsame
    rw [hother] at hnone
    cases hnone
  · have hnone := (List.pairwise_cons.mp hafter).1 other hmem hsame.symm
    rw [hfile] at hnone
    cases hnone

/-- If the paths are apart, it does not matter where one of them stands. -/
lemma IsApart.newText_middle (h : fs.IsApart (before ++ path :: after)) :
    fs.newText settings (before ++ path :: after) location =
      (if fs.fileAt? path = some location then (fs.treat settings path).written else none).or
        (fs.newText settings (before ++ after) location) := by
  have hcons : fs.newText settings (path :: after) location =
      (if fs.fileAt? path = some location then (fs.treat settings path).written else none).or
        (fs.newText settings after location) := by
    simp only [newText, List.findSome?_cons]
    split <;> simp_all
  rw [newText_append, hcons, newText_append]
  split_ifs with hfile
  · have hnone : fs.newText settings before location = none :=
      newText_eq_none fun other hmem =>
        h.fileAt?_ne hfile other (List.mem_append_left _ hmem)
    rw [hnone]
    rfl
  · rfl

/-- The new text of a listed file is the one that its own treatment writes. -/
lemma IsApart.newText_eq_written (h : fs.IsApart paths) (hpath : path ∈ paths)
    (hfile : fs.fileAt? path = some location) :
    fs.newText settings paths location = (fs.treat settings path).written := by
  obtain ⟨before, after, rfl⟩ := List.append_of_mem hpath
  rw [h.newText_middle, if_pos hfile, newText_eq_none (h.fileAt?_ne hfile), Option.or_none]

/-- **What listed files hold afterwards.** -/
lemma IsApart.read_newText (h : fs.IsApart paths) (hpath : path ∈ paths) :
    (fs.withTexts (fs.newText settings paths)).read path =
      match (fs.treat settings path).written with
      | some text => .ok (.text text)
      | none => fs.read path := by
  cases hwritten : (fs.treat settings path).written with
  | none =>
      refine read_withTexts fun location hfile => ?_
      rw [h.newText_eq_written hpath hfile, hwritten]
  | some text =>
      obtain ⟨location, hfile⟩ := exists_fileAt?_of_written hwritten
      exact read_withTexts_of_eq_some hfile ((h.newText_eq_written hpath hfile).trans hwritten)

end FileSystem

/-! ### Workers -/

/-- How far a worker has come with its file. -/
inductive Stage where
  | waiting
  /-- The file has been read, or reading it has failed. -/
  | holding (result : Except FileFault String)
  /-- It is known what to do with the file. -/
  | decided (treatment : Treatment)
  | finished (report : Report)

/-- A worker and the path that it was given. -/
structure Worker where
  path : Path
  stage : Stage

/-- Workers that share the files. -/
structure Pool where
  files : FileSystem
  workers : List Worker

namespace Stage

/-- The number of steps that are left. -/
def remaining : Stage → Nat
  | waiting => 3
  | holding _ => 2
  | decided _ => 1
  | finished _ => 0

end Stage

namespace Worker

/-- The report of a worker that has finished. -/
def report? (worker : Worker) : Option Report :=
  match worker.stage with
  | .finished report => some report
  | _ => none

/-- The paths of the workers that have finished. -/
def finishedPaths (workers : List Worker) : List Path :=
  (workers.filter (·.report?.isSome)).map (·.path)

/-- What a worker knows is true of the given files. -/
def IsRight (fs : FileSystem) (settings : Settings) (worker : Worker) : Prop :=
  match worker.stage with
  | .waiting => True
  | .holding result => result = fs.readText worker.path
  | .decided treatment => treatment = fs.treat settings worker.path
  | .finished report => report = (fs.treat settings worker.path).report

variable {worker : Worker} {before after : List Worker}

lemma finishedPaths_of_eq_none (h : worker.report? = none) :
    finishedPaths (before ++ worker :: after) = finishedPaths before ++ finishedPaths after := by
  simp [finishedPaths, h]

lemma finishedPaths_of_eq_some {report : Report} (h : worker.report? = some report) :
    finishedPaths (before ++ worker :: after) =
      finishedPaths before ++ worker.path :: finishedPaths after := by
  simp [finishedPaths, h]

lemma finishedPaths_sublist (workers : List Worker) :
    (finishedPaths workers).Sublist (workers.map (·.path)) :=
  List.filter_sublist.map _

end Worker

namespace Pool

/-- The pool before anything has been done. -/
def start (fs : FileSystem) (paths : List Path) : Pool := ⟨fs, paths.map (⟨·, .waiting⟩)⟩

/-- The reports there are, in the order of the paths. -/
def reports (pool : Pool) : List Report := pool.workers.filterMap (·.report?)

/-- Whether every worker has finished. -/
def IsFinished (pool : Pool) : Prop := ∀ worker ∈ pool.workers, worker.report?.isSome = true

/-- The number of steps that are left. -/
def remaining (pool : Pool) : Nat := (pool.workers.map (·.stage.remaining)).sum

/-- A step of one of the workers. -/
inductive Step (settings : Settings) : Pool → Pool → Prop
  /-- It reads its file. -/
  | read (fs : FileSystem) (before after : List Worker) (path : Path) :
      Step settings ⟨fs, before ++ ⟨path, .waiting⟩ :: after⟩
        ⟨fs, before ++ ⟨path, .holding (fs.readText path)⟩ :: after⟩
  /-- It decides what to do with what it has read. -/
  | decide (fs : FileSystem) (before after : List Worker) (path : Path)
      (result : Except FileFault String) :
      Step settings ⟨fs, before ++ ⟨path, .holding result⟩ :: after⟩
        ⟨fs, before ++ ⟨path, .decided (Treatment.ofRead settings path result)⟩ :: after⟩
  /-- It writes the file back, if it is to be written, and reports. -/
  | write (fs : FileSystem) (before after : List Worker) (path : Path) (treatment : Treatment) :
      Step settings ⟨fs, before ++ ⟨path, .decided treatment⟩ :: after⟩
        ⟨fs.apply treatment, before ++ ⟨path, .finished treatment.report⟩ :: after⟩

/-- Any number of steps, of whichever workers. -/
abbrev Steps (settings : Settings) : Pool → Pool → Prop := ReflTransGen (Step settings)

variable {settings : Settings} {fs : FileSystem} {paths : List Path} {pool next : Pool}

/-! ### Every way comes to an end -/

lemma remaining_of_step (h : Step settings pool next) : next.remaining + 1 = pool.remaining := by
  cases h <;> simp [remaining, Stage.remaining] <;> omega

/-- Unless all workers have finished, one of them can take a step. -/
lemma exists_step (h : ¬ pool.IsFinished) : ∃ next, Step settings pool next := by
  obtain ⟨files, workers⟩ := pool
  simp only [IsFinished, not_forall] at h
  obtain ⟨⟨path, stage⟩, hmem, hunfinished⟩ := h
  obtain ⟨before, after, rfl⟩ := List.append_of_mem hmem
  cases stage with
  | waiting => exact ⟨_, .read files before after path⟩
  | holding result => exact ⟨_, .decide files before after path result⟩
  | decided treatment => exact ⟨_, .write files before after path treatment⟩
  | finished report => exact absurd rfl hunfinished

/-- Whatever has been done, the workers can finish. -/
lemma exists_steps_isFinished (pool : Pool) :
    ∃ last, Steps settings pool last ∧ last.IsFinished := by
  induction hremaining : pool.remaining generalizing pool with
  | zero =>
      refine ⟨pool, .refl, ?_⟩
      by_contra hunfinished
      obtain ⟨next, hstep⟩ := @exists_step settings _ hunfinished
      have := remaining_of_step hstep
      omega
  | succ n ih =>
      by_cases hfinished : pool.IsFinished
      · exact ⟨pool, .refl, hfinished⟩
      · obtain ⟨next, hstep⟩ := @exists_step settings _ hfinished
        have := remaining_of_step hstep
        obtain ⟨last, hsteps, hlast⟩ := ih next (by omega)
        exact ⟨last, .head hstep hsteps, hlast⟩

/-! ### What holds at any moment -/

/-- The workers have seen the files as they were in the beginning, and the files are the ones of the
beginning with the texts of those who have finished. -/
structure IsSound (fs : FileSystem) (settings : Settings) (paths : List Path) (pool : Pool) :
    Prop where
  paths_eq : pool.workers.map (·.path) = paths
  isRight : ∀ worker ∈ pool.workers, worker.IsRight fs settings
  files_eq : pool.files =
    fs.withTexts (fs.newText settings (Worker.finishedPaths pool.workers))

lemma map_path_start : (start fs paths).workers.map (·.path) = paths := by
  rw [start, List.map_map]
  exact List.map_id'' (fun _ => rfl) paths

lemma isSound_start : (start fs paths).IsSound fs settings paths where
  paths_eq := map_path_start
  isRight := by
    intro worker hworker
    obtain ⟨path, -, rfl⟩ := List.mem_map.mp hworker
    trivial
  files_eq := by
    have hnone : Worker.finishedPaths (start fs paths).workers = [] := by
      simp [Worker.finishedPaths, start, Worker.report?]
    rw [hnone]
    exact FileSystem.withTexts_none.symm

section

variable {files files' : FileSystem} {before after : List Worker} {worker worker' : Worker}

/-- A worker may be replaced by one that knows more. -/
lemma IsSound.replace (h : IsSound fs settings paths ⟨files, before ++ worker :: after⟩)
    (hpath : worker'.path = worker.path) (hright : worker'.IsRight fs settings)
    (hfiles : files' = fs.withTexts
      (fs.newText settings (Worker.finishedPaths (before ++ worker' :: after)))) :
    IsSound fs settings paths ⟨files', before ++ worker' :: after⟩ where
  paths_eq := by
    rw [← h.paths_eq]
    simp [hpath]
  isRight := by
    intro other hmem
    rcases List.mem_append.mp hmem with hmem | hmem
    · exact h.isRight other (List.mem_append_left _ hmem)
    · rcases List.mem_cons.mp hmem with rfl | hmem
      · exact hright
      · exact h.isRight other (List.mem_append_right _ (List.mem_cons_of_mem _ hmem))
  files_eq := hfiles

lemma IsSound.files_eq_of_eq_none
    (h : IsSound fs settings paths ⟨files, before ++ worker :: after⟩)
    (hnone : worker.report? = none) :
    files = fs.withTexts (fs.newText settings
      (Worker.finishedPaths before ++ Worker.finishedPaths after)) := by
  rw [← Worker.finishedPaths_of_eq_none hnone]
  exact h.files_eq

/-- The paths of the workers that have finished are apart from that of any other worker. -/
lemma IsSound.isApart (h : IsSound fs settings paths ⟨files, before ++ worker :: after⟩)
    (hapart : fs.IsApart paths) :
    fs.IsApart (Worker.finishedPaths before ++ worker.path :: Worker.finishedPaths after) := by
  rw [← h.paths_eq] at hapart
  refine List.Pairwise.sublist ?_ hapart
  simp only [List.map_append, List.map_cons]
  exact (Worker.finishedPaths_sublist before).append
    ((Worker.finishedPaths_sublist after).cons_cons _)

end

/-- **A step keeps what holds at any moment.** -/
lemma IsSound.step (hapart : fs.IsApart paths) (h : pool.IsSound fs settings paths)
    (hstep : Step settings pool next) : next.IsSound fs settings paths := by
  cases hstep with
  | read files before after path =>
      have hfiles := h.files_eq_of_eq_none rfl
      -- nobody else writes to this file, so it is still as it was in the beginning
      have hread : files.readText path = fs.readText path := by
        rw [hfiles]
        refine FileSystem.readText_congr (FileSystem.read_withTexts fun location hfile => ?_)
        exact FileSystem.newText_eq_none ((h.isApart hapart).fileAt?_ne hfile)
      refine h.replace rfl hread ?_
      rwa [Worker.finishedPaths_of_eq_none rfl]
  | decide files before after path result =>
      have hresult : result = fs.readText path := h.isRight ⟨path, .holding result⟩ (by simp)
      refine h.replace rfl (congrArg (Treatment.ofRead settings path) hresult) ?_
      rw [Worker.finishedPaths_of_eq_none rfl]
      exact h.files_eq_of_eq_none rfl
  | write files before after path treatment =>
      have htreatment : treatment = fs.treat settings path :=
        h.isRight ⟨path, .decided treatment⟩ (by simp)
      have hpath : treatment.report.path = path := by
        rw [htreatment]
        exact Treatment.path_report
      refine h.replace rfl (congrArg Treatment.report htreatment) ?_
      rw [Worker.finishedPaths_of_eq_some rfl, h.files_eq_of_eq_none rfl,
        FileSystem.apply_withTexts, hpath, htreatment]
      congr 1
      funext location
      exact (h.isApart hapart).newText_middle.symm

lemma IsSound.steps (hapart : fs.IsApart paths) (h : Steps settings (start fs paths) pool) :
    pool.IsSound fs settings paths := by
  induction h with
  | refl => exact isSound_start
  | tail _ hstep ih => exact ih.step hapart hstep

/-- **All ways end alike**: the reports tell what is to be done with the files of the beginning, and
it has been done. -/
lemma IsSound.of_isFinished (h : pool.IsSound fs settings paths) (hfinished : pool.IsFinished) :
    pool.reports = paths.map (fun path => (fs.treat settings path).report) ∧
      pool.files = fs.withTexts (fs.newText settings paths) := by
  have hreport : ∀ worker ∈ pool.workers,
      worker.report? = some (fs.treat settings worker.path).report := by
    intro worker hworker
    obtain ⟨report, hreport⟩ := Option.isSome_iff_exists.mp (hfinished worker hworker)
    have hright := h.isRight worker hworker
    obtain ⟨path, stage⟩ := worker
    cases stage with
    | finished report => exact congrArg some hright
    | _ => cases hreport
  have hpaths : Worker.finishedPaths pool.workers = paths := by
    rw [Worker.finishedPaths, List.filter_eq_self.mpr hfinished, h.paths_eq]
  constructor
  · rw [reports, ← h.paths_eq, List.map_map, ← List.filterMap_eq_map]
    exact List.filterMap_congr hreport
  · rw [h.files_eq, hpaths]

/-! ### One after the other -/

/-- The workers that have processed files one after the other. -/
def ofTreatments (fs : FileSystem) (treatments : List Treatment) (before : List Worker) : Pool :=
  ⟨fs, before ++ treatments.map fun t => ⟨t.report.path, .finished t.report⟩⟩

lemma isFinished_ofTreatments (fs : FileSystem) (treatments : List Treatment) :
    (ofTreatments fs treatments []).IsFinished := by
  intro worker hworker
  obtain ⟨t, -, rfl⟩ := List.mem_map.mp hworker
  rfl

lemma reports_ofTreatments (fs : FileSystem) (treatments : List Treatment) :
    (ofTreatments fs treatments []).reports = treatments.map (·.report) := by
  rw [reports, ofTreatments, List.nil_append, List.filterMap_map, ← List.filterMap_eq_map]
  rfl

/-- **Processing files one after the other is one of the ways.** -/
lemma steps_processAll (fs : FileSystem) (before : List Worker) (paths : List Path) :
    Steps settings ⟨fs, before ++ paths.map (⟨·, .waiting⟩)⟩
      (ofTreatments (fs.processAll settings paths).2 (fs.processAll settings paths).1 before) := by
  induction paths generalizing fs before with
  | nil => exact .refl
  | cons path rest ih =>
      have hpath : (fs.treat settings path).report.path = path := Treatment.path_report
      have hrest := ih (fs.process settings path).2
        (before ++ [⟨path, .finished (fs.treat settings path).report⟩])
      rw [List.append_assoc, List.singleton_append] at hrest
      have hlast : ofTreatments (fs.processAll settings (path :: rest)).2
          (fs.processAll settings (path :: rest)).1 before =
          ofTreatments ((fs.process settings path).2.processAll settings rest).2
            ((fs.process settings path).2.processAll settings rest).1
            (before ++ [⟨path, .finished (fs.treat settings path).report⟩]) := by
        simp [ofTreatments, FileSystem.processAll, FileSystem.process, hpath]
      rw [hlast]
      exact .head (.read fs before _ path) (.head (.decide fs before _ path _)
        (.head (.write fs before _ path _) hrest))

/-- What processing files one after the other gives, if they are apart. -/
lemma processAll_eq (settings : Settings) (hapart : fs.IsApart paths) :
    (fs.processAll settings paths).1.map (·.report) =
        paths.map (fun path => (fs.treat settings path).report) ∧
      (fs.processAll settings paths).2 = fs.withTexts (fs.newText settings paths) := by
  have hsteps := @steps_processAll settings fs [] paths
  obtain ⟨hreports, hfiles⟩ :=
    (IsSound.steps hapart hsteps).of_isFinished (isFinished_ofTreatments _ _)
  rw [reports_ofTreatments] at hreports
  exact ⟨hreports, hfiles⟩

end Pool

/-! ### What a run leaves -/

/-- What the report on a path tells of the files before and after: a file in which something was
simplified holds the result, unless the run was dry; in every other case the path leads to what it
led to. -/
structure FileSystem.Ends (fs after : FileSystem) (settings : Settings) (path : Path)
    (report : Report) : Prop where
  path_eq : report.path = path
  report_eq : report = (fs.treat settings path).report
  written : ∀ counts, report.outcome = .ok counts → settings.isDry = false →
    ∃ source t, fs.readText path = .ok source ∧
      transformFile path settings.transform source = .ok t ∧ t.counts = counts ∧
      after.read path = .ok (.text t.code)
  kept : (∀ counts, report.outcome ≠ .ok counts) ∨ settings.isDry = true →
    after.read path = fs.read path

namespace FileSystem

variable {fs : FileSystem} {settings : Settings} {paths : List Path}

lemma IsApart.ends (hapart : fs.IsApart paths) {path : Path} (hpath : path ∈ paths) :
    fs.Ends (fs.withTexts (fs.newText settings paths)) settings path
      (fs.treat settings path).report where
  path_eq := Treatment.path_report
  report_eq := rfl
  written := by
    intro counts houtcome hdry
    obtain ⟨source, t, hsource, ht, hchanged, hcounts⟩ := Treatment.outcome_eq_ok_iff.mp houtcome
    have hwritten : (fs.treat settings path).written = some t.code :=
      Treatment.written_eq_some_iff.mpr ⟨hdry, source, t, hsource, ht, hchanged, rfl⟩
    refine ⟨source, t, hsource, ht, hcounts, ?_⟩
    rw [hapart.read_newText hpath, hwritten]
  kept := by
    intro h
    have hwritten : (fs.treat settings path).written = none := by
      refine Option.eq_none_iff_forall_ne_some.mpr fun text htext => ?_
      obtain ⟨hdry, source, t, hsource, ht, hchanged, -⟩ := Treatment.written_eq_some_iff.mp htext
      rcases h with h | h
      · exact h _ (Treatment.outcome_eq_ok_iff.mpr ⟨source, t, hsource, ht, hchanged, rfl⟩)
      · rw [hdry] at h
        cases h
    rw [hapart.read_newText hpath, hwritten]

/-- A file to which no path leads is left alone. -/
lemma contentAt?_newText {location : Location}
    (h : ∀ path ∈ paths, fs.fileAt? path ≠ some location) :
    (fs.withTexts (fs.newText settings paths)).contentAt? location = fs.contentAt? location := by
  rw [contentAt?_withTexts, newText_eq_none h]
  cases fs.contentAt? location <;> rfl

lemma newText_dry : fs.newText { settings with isDry := true } paths = fun _ => none := by
  funext location
  refine List.findSome?_eq_none_iff.mpr fun path _ => ?_
  have hwritten : (fs.treat { settings with isDry := true } path).written = none := by
    refine Option.eq_none_iff_forall_ne_some.mpr fun text htext => ?_
    exact nomatch (Treatment.written_eq_some_iff.mp htext).1
  rw [hwritten, ite_self]

/-- The reports of a dry run. -/
lemma report_treat_dry (path : Path) :
    (fs.treat { settings with isDry := true } path).report =
      (fs.treat { settings with isDry := false } path).report :=
  Treatment.report_dry { settings with isDry := false } path (fs.readText path) true

end FileSystem

open FileSystem Pool

/-- **Files that are processed side by side end as if they were processed one after the other.** Let
paths lead to different files, or nowhere. Whatever the workers have done so far, they can finish;
and whenever they have finished, in whichever order their steps came, the reports, in the order of
the paths, and the files are those of a run. Each listed file ends as its report tells, and all
others, and the directories, are as they were. -/
theorem Pool.steps_eq_run (fs : FileSystem) (settings : Settings) (paths : List Path)
    (hapart : fs.IsApart paths) :
    (∀ pool, Steps settings (start fs paths) pool →
      ∃ last, Steps settings pool last ∧ last.IsFinished) ∧
    ∀ pool, Steps settings (start fs paths) pool → pool.IsFinished →
      Summary.ofReports pool.reports = (fs.run settings paths).summary ∧
      pool.reports = (fs.run settings paths).summary.reports ∧
      pool.files = (fs.run settings paths).files ∧
      List.Forall₂ (fs.Ends pool.files settings) paths pool.reports ∧
      (∀ location, (∀ path ∈ paths, fs.fileAt? path ≠ some location) →
        pool.files.contentAt? location = fs.contentAt? location) ∧
      pool.files.files.map (·.1) = fs.files.map (·.1) ∧
      pool.files.directories = fs.directories := by
  refine ⟨fun pool _ => exists_steps_isFinished pool, fun pool hsteps hfinished => ?_⟩
  obtain ⟨hreports, hfiles⟩ := (IsSound.steps hapart hsteps).of_isFinished hfinished
  obtain ⟨hreports', hfiles'⟩ := processAll_eq settings hapart
  refine ⟨?_, ?_, ?_, ?_, ?_, ?_, ?_⟩
  · rw [hreports, ← hreports']
    rfl
  · rw [hreports, ← hreports']
    rfl
  · rw [hfiles, ← hfiles']
    rfl
  · rw [hreports, hfiles, List.forall₂_map_right_iff, List.forall₂_same]
    exact fun path hpath => hapart.ends hpath
  · rw [hfiles]
    exact fun location => contentAt?_newText
  · rw [hfiles, withTexts, List.map_map]
    rfl
  · rw [hfiles]
    rfl

/-- Files with every kind of outcome: one is simplified, one has nothing to simplify, one is not in
the language, one is no text and one is in no dialect. -/
def mixedTree : FileSystem where
  files := [(["a.js"], .text "(\x7ba: a\x7d)"), (["b.js"], .text "(\x7ba: b\x7d)"),
    (["c.js"], .text "(\x7ba: \x7d)"), (["d.js"], .binary [255]), (["e.md"], .text "")]

/-- The paths of these files, and one that leads nowhere. -/
def mixedPaths : List Path := ["a.js", "b.js", "c.js", "d.js", "e.md", "f.js"]

/-- Workers that are done with the small tree leave the files that a run leaves: one file is
simplified, and another stays as it was. -/
theorem Pool.steps_eq_run_mixedTree :
    mixedTree.IsApart mixedPaths ∧ ∃ pool, Steps .default (start mixedTree mixedPaths) pool ∧
      pool.IsFinished ∧ pool.files = (mixedTree.run .default mixedPaths).files ∧
      pool.files.read "a.js" = .ok (.text "(\x7b a \x7d);\n") ∧
      pool.files.read "b.js" = mixedTree.read "b.js" := by
  have hapart : mixedTree.IsApart mixedPaths := by decide +kernel
  obtain ⟨hfinish, hends⟩ := steps_eq_run mixedTree .default mixedPaths hapart
  obtain ⟨pool, hsteps, hfinished⟩ := hfinish _ .refl
  obtain ⟨-, -, hfiles, -⟩ := hends pool hsteps hfinished
  refine ⟨hapart, pool, hsteps, hfinished, hfiles, ?_, ?_⟩
  · rw [hfiles]
    decide +kernel
  · rw [hfiles]
    decide +kernel

/-- **A dry run tells what a run will do.** Let paths lead to different files, or nowhere. A dry run
leaves all files as they are, at any moment, and its summary is that of a run which writes; so is
its line of totals. The same is true of any two runs side by side of which one is dry. -/
theorem FileSystem.run_dry (fs : FileSystem) (settings : Settings) (paths : List Path)
    (hapart : fs.IsApart paths) :
    (fs.run { settings with isDry := true } paths).files = fs ∧
      (fs.run { settings with isDry := true } paths).summary =
        (fs.run { settings with isDry := false } paths).summary ∧
      (∀ pool, Steps { settings with isDry := true } (Pool.start fs paths) pool → pool.files = fs) ∧
      ∀ pool pool', Steps { settings with isDry := true } (Pool.start fs paths) pool →
        Steps { settings with isDry := false } (Pool.start fs paths) pool' → pool.IsFinished →
        pool'.IsFinished → Summary.ofReports pool.reports = Summary.ofReports pool'.reports := by
  have hreport : ∀ paths : List Path,
      paths.map (fun path => (fs.treat { settings with isDry := true } path).report) =
        paths.map (fun path => (fs.treat { settings with isDry := false } path).report) :=
    fun paths => List.map_congr_left fun path _ => report_treat_dry path
  obtain ⟨hdry, hfiles⟩ := processAll_eq { settings with isDry := true } hapart
  obtain ⟨hreal, -⟩ := processAll_eq { settings with isDry := false } hapart
  refine ⟨?_, ?_, ?_, ?_⟩
  · rw [newText_dry, withTexts_none] at hfiles
    exact hfiles
  · exact congrArg Summary.ofReports (hdry.trans ((hreport paths).trans hreal.symm))
  · intro pool hsteps
    rw [(IsSound.steps hapart hsteps).files_eq, newText_dry, withTexts_none]
  · intro pool pool' hsteps hsteps' hfinished hfinished'
    rw [((IsSound.steps hapart hsteps).of_isFinished hfinished).1,
      ((IsSound.steps hapart hsteps').of_isFinished hfinished').1, hreport]

/-- A dry run of the small tree reports what a run reports that changes a file. -/
theorem FileSystem.run_dry_mixedTree :
    mixedTree.IsApart mixedPaths ∧
      (mixedTree.run { Settings.default with isDry := true } mixedPaths).files = mixedTree ∧
      (mixedTree.run { Settings.default with isDry := true } mixedPaths).summary =
        (mixedTree.run { Settings.default with isDry := false } mixedPaths).summary ∧
      (mixedTree.run { Settings.default with isDry := false } mixedPaths).files ≠ mixedTree := by
  have hapart : mixedTree.IsApart mixedPaths := by decide +kernel
  obtain ⟨hfiles, hsummary, -⟩ := run_dry mixedTree .default mixedPaths hapart
  exact ⟨hapart, hfiles, hsummary, by decide +kernel⟩

end Concise
