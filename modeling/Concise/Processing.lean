import Concise.Discovery
import Concise.Log
import Concise.Report
import Concise.Transform

/-!
Processing of files.

A file is read, treated and written back. `treat` is the middle step, a function of what was read;
the steps of different files do not depend on each other.
-/

namespace Concise

namespace Transformed

/-- What a transformation logs. -/
def events (t : Transformed) (name : String) : List Event :=
  t.done.map (fun (s, offset) => .simplified s offset) ++
    (if t.pending = 0 then [] else [.unapplied t.pending]) ++
    [.scanned name t.counts]

end Transformed

/-- What is done with a file. -/
structure Treatment where
  report : Report
  /-- The new text of the file, if it is written. -/
  written : Option String := none
  events : List Event := []
deriving DecidableEq, Inhabited

namespace Treatment

/-- The event that goes with a report. -/
def reportEvent (report : Report) : Event :=
  match report.outcome with
  | .ok counts => .transformed report.path counts
  | .unmodified => .unmodified report.path
  | .skipped reason => .skipped report.path reason
  | .error message => .failed report.path message

/-- The treatment of a file that was not transformed. -/
def leaveAlone (path : Path) (outcome : Outcome) : Treatment := { report := { path, outcome } }

/-- The treatment of a file that was transformed. -/
def ofTransformed (settings : Settings) (path : Path) (t : Transformed) : Treatment :=
  if t.isChanged then
    { report :=
        { path, outcome := .ok t.counts, output := if settings.prints then some t.code else none }
      written := if settings.isDry then none else some t.code
      events := t.events path }
  else { leaveAlone path .unmodified with events := t.events path }

/-- The treatment of a file with a text. -/
def ofSource (settings : Settings) (path : Path) (source : String) : Treatment :=
  match transformFile path settings.transform source with
  | .ok t => ofTransformed settings path t
  | .error (.unsupportedExtension p) =>
      leaveAlone path (.skipped (Error.unsupportedExtension p).message)
  | .error e => leaveAlone path (.error e.message)

/-- The treatment of a file, given what reading it gave. -/
def ofRead (settings : Settings) (path : Path) : Except FileFault String → Treatment
  | .ok source => ofSource settings path source
  | .error fault => leaveAlone path (.error ("failed to read " ++ path ++ ": " ++ fault.message))

/-- What treating a file logs, its report last. -/
def log (t : Treatment) : List Event := t.events ++ [reportEvent t.report]

end Treatment

namespace FileSystem

/-- Decides what to do with a file. -/
def treat (fs : FileSystem) (settings : Settings) (path : Path) : Treatment :=
  Treatment.ofRead settings path (fs.readText path)

/-- Does what was decided for a file. -/
def apply (fs : FileSystem) (t : Treatment) : FileSystem :=
  match t.written with
  | some text => fs.write t.report.path text
  | none => fs

/-- Processes a file: reads it, treats it and writes it back. -/
def process (fs : FileSystem) (settings : Settings) (path : Path) : Treatment × FileSystem :=
  let t := fs.treat settings path
  (t, fs.apply t)

/-- Processes files one after the other. -/
def processAll (fs : FileSystem) (settings : Settings) : List Path → List Treatment × FileSystem
  | [] => ([], fs)
  | path :: rest =>
      let (t, fs) := fs.process settings path
      let (others, fs) := fs.processAll settings rest
      (t :: others, fs)

end FileSystem

/-- The result of a run. -/
structure Run where
  summary : Summary
  events : List Event
  files : FileSystem
deriving DecidableEq, Inhabited

/-- Processes files and sums up. -/
def FileSystem.run (fs : FileSystem) (settings : Settings) (paths : List Path) : Run :=
  let (treatments, files) := fs.processAll settings paths
  { summary := Summary.ofReports (treatments.map (·.report))
    events := treatments.flatMap (·.log)
    files }

end Concise
