import Concise.Processing

/-!
The command: arguments, environment, standard input and files in; output, messages, exit code and
files out.

* `Command.perform` does what arguments ask.
* `Command.execute` reads the arguments first, and shows events and errors.
-/

namespace Concise

/-- Why the command did not get to the files, or failed on the standard input. -/
inductive CommandError where
  | unreadableConfig (path : Path) (fault : FileFault)
  | invalidConfig (path : Path)
  | invalidPattern (error : PatternError)
  | unreadableInput (fault : FileFault)
  /-- The source on the standard input was not transformed. -/
  | source (error : Error)
  /-- The files are not known. -/
  | discovery (failure : Discovery.Failure)
  | noWorkers (reason : String)
deriving DecidableEq, Inhabited

namespace CommandError

/-- What failed, without the cause. -/
def headline : CommandError → String
  | unreadableConfig path _ => "failed to read config " ++ path
  | invalidConfig path => "invalid config " ++ path
  | invalidPattern e => e.message
  | unreadableInput _ => "failed to read stdin"
  | source e => e.message
  | discovery failure => failure.headline
  | noWorkers _ => "failed to start worker pool"

/-- What failed and why. -/
def message (e : CommandError) : String :=
  match e with
  | unreadableConfig _ fault => e.headline ++ ": " ++ fault.message
  | unreadableInput fault => e.headline ++ ": " ++ fault.message
  | discovery failure => failure.message
  | noWorkers reason => e.headline ++ ": " ++ reason
  | _ => e.headline

end CommandError

/-- What the command finds besides arguments and files. -/
structure Surroundings where
  /-- The environment variables. -/
  lookUp? : String → Option String := fun _ => none
  /-- What stands on the standard input. -/
  input : Content := .text ""
  /-- Why so many workers cannot be started. -/
  workerFault? : Nat → Option String := fun _ => none

/-- What the command completed. -/
inductive Completion where
  /-- The source on the standard input was transformed into this. -/
  | source (code : String)
  | files (summary : Summary)
deriving DecidableEq, Inhabited

namespace Completion

/-- What goes to the standard output. -/
def output : Completion → String
  | source code => code
  | files summary =>
      String.join (summary.reports.filterMap fun report => report.output.map (· ++ "\n"))

/-- The message about a file. -/
def note? (report : Report) : Option String :=
  match report.outcome with
  | .error message => some (" ERR " ++ report.path ++ " " ++ message)
  | .skipped reason => some ("SKIP " ++ report.path ++ " " ++ reason)
  | _ => none

/-- The messages about the files, and the totals. -/
def notes : Completion → List String
  | source _ => []
  | files summary => summary.reports.filterMap note? ++ [summary.line]

/-- The exit code. -/
def exitCode : Completion → Nat
  | source _ => 0
  | files summary => if summary.hasErrors then 1 else 0

end Completion

/-- What the command did. -/
structure Performance where
  result : Except CommandError Completion
  events : List Event := []
  files : FileSystem

namespace Config

/-- Reads a configuration file. -/
def load (fs : FileSystem) (path : Path) : Except CommandError Config :=
  match fs.readText path with
  | .error fault => .error (.unreadableConfig path fault)
  | .ok text =>
      match parse? text with
      | some config => .ok config
      | none => .error (.invalidConfig path)

end Config

namespace Command

/-- The settings that arguments and the configuration file make. -/
def settings (fs : FileSystem) (arguments : Arguments) : Except CommandError Settings := do
  let config ←
    match arguments.config with
    | some path => Config.load fs path
    | none => pure {}
  (Settings.resolve arguments config).mapError .invalidPattern

/-- Transforms the source on the standard input. -/
def transformInput (surroundings : Surroundings) (fs : FileSystem) (arguments : Arguments)
    (settings : Settings) : Performance :=
  match surroundings.input.asText with
  | .error fault => { result := .error (.unreadableInput fault), files := fs }
  | .ok source =>
      match transformFile arguments.stdinName settings.transform source with
      | .error e => { result := .error (.source e), files := fs }
      | .ok t =>
          { result := .ok (.source t.code), events := t.events arguments.stdinName, files := fs }

/-- Processes the files that the arguments stand for. -/
def processFiles (surroundings : Surroundings) (fs : FileSystem) (arguments : Arguments)
    (settings : Settings) : Performance :=
  let ignored := (Discovery.ignored settings fs arguments.paths).map Event.ignored
  match Discovery.collect settings fs arguments.paths with
  | .error failure => { result := .error (.discovery failure), events := ignored, files := fs }
  | .ok paths =>
      let begun := ignored ++ [.processing paths.length settings.isDry]
      match arguments.workers.bind surroundings.workerFault? with
      | some reason => { result := .error (.noWorkers reason), events := begun, files := fs }
      | none =>
          let run := fs.run settings paths
          { result := .ok (.files run.summary), events := begun ++ run.events, files := run.files }

/-- Does what arguments ask. -/
def perform (surroundings : Surroundings) (fs : FileSystem) (arguments : Arguments) : Performance :=
  match settings fs arguments with
  | .error e => { result := .error e, files := fs }
  | .ok settings =>
      if arguments.readsStdin then transformInput surroundings fs arguments settings
      else processFiles surroundings fs arguments settings

/-! ### Showing -/

/-- The variable that says which events are shown. -/
def logVariable : String := "OBJECT_SHORTHAND_LOG"

/-- The variable that says so if the first one is not set. -/
def generalLogVariable : String := "RUST_LOG"

/-- The variable that says how events are shown. -/
def logFormatVariable : String := "OBJECT_SHORTHAND_LOG_FORMAT"

/-- Which events are shown: what the environment says, else as many as the arguments ask for. -/
def filter (surroundings : Surroundings) (arguments : Arguments) : LogFilter :=
  match (surroundings.lookUp? logVariable).or (surroundings.lookUp? generalLogVariable) with
  | some directives => LogFilter.parse directives
  | none => LogFilter.ofLevel (LogLevel.ofVerbosity arguments.verbosity)

/-- How events are shown. -/
def format (surroundings : Surroundings) : LogFormat :=
  LogFormat.ofName ((surroundings.lookUp? logFormatVariable).getD "")

/-- What a run of the command leaves. -/
structure Result where
  exitCode : Nat
  /-- What goes to the standard output. -/
  output : String := ""
  /-- The lines that go to the standard error. -/
  lines : List LogLine := []
  files : FileSystem

/-- The result of arguments that were not accepted. -/
def refuse (fs : FileSystem) (e : ArgumentError) : Result :=
  if e.isRequest then { exitCode := 0, output := e.message ++ "\n", files := fs }
  else { exitCode := 2, lines := [.text e.headline], files := fs }

/-- Shows what the command did. -/
def present (surroundings : Surroundings) (arguments : Arguments) (p : Performance) : Result :=
  let shown := (p.events.filter (filter surroundings arguments).shows).map
    fun event => event.line (format surroundings)
  match p.result with
  | .error e =>
      { exitCode := 1, lines := shown ++ [.text ("Error: " ++ e.message)], files := p.files }
  | .ok completion =>
      { exitCode := completion.exitCode
        output := completion.output
        lines := shown ++ completion.notes.map .text
        files := p.files }

/-- Runs the command. -/
def execute (surroundings : Surroundings) (fs : FileSystem) (argv : List String) : Result :=
  match Arguments.parse argv with
  | .error e => refuse fs e
  | .ok arguments => present surroundings arguments (perform surroundings fs arguments)

end Command

end Concise
