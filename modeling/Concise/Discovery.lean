import Concise.Settings
import Concise.Walk

/-!
Discovery: which files the paths on the command line stand for.

* A file stands for itself, whatever its extension.
* A directory stands for the files at any depth below it that have a wanted extension and that no
  pattern leaves out. Patterns are matched against the path below the directory.
* The files are sorted by components, and of equal paths the first is kept.
-/

namespace Concise

namespace Path

/-- A path relative to another, by components; the whole path if it is not below the other. -/
def relativeTo (path base : Path) : Path :=
  match strip? base.components path.components with
  | some rest => "/".intercalate (rest.map Component.text)
  | none => path
where
  strip? : List Component → List Component → Option (List Component)
    | [], rest => some rest
    | a :: as, b :: bs => if a = b then strip? as bs else none
    | _ :: _, [] => none

end Path

namespace Discovery

/-- Why the files that arguments stand for are not known. -/
inductive Failure where
  /-- An argument leads nowhere. -/
  | missing (path : Path)
  /-- The pattern for what is below a directory cannot be read. -/
  | invalidPattern (pattern : String) (error : Glob.Error)
  /-- A directory on the way cannot be listed. -/
  | unlisted (fault : Walk.Fault)
deriving DecidableEq, Inhabited

namespace Failure

/-- What failed, without the cause. -/
def headline : Failure → String
  | missing path => "path does not exist: " ++ path
  | invalidPattern pattern _ => "invalid directory pattern " ++ pattern
  | unlisted _ => "failed to walk directory"

/-- What failed and why. -/
def message (failure : Failure) : String :=
  match failure with
  | missing _ => failure.headline
  | invalidPattern _ error => failure.headline ++ ": " ++ error.message
  | unlisted fault => failure.headline ++ ": " ++ fault.message

end Failure

/-- What an argument stands for. -/
inductive Target where
  | file
  | directory
  | missing
deriving DecidableEq, Inhabited

/-- What a path leads to. -/
def target (fs : FileSystem) (path : Path) : Target :=
  if (fs.fileAt? path).isSome then .file
  else if (fs.directoryAt? path).isSome then .directory
  else .missing

/-- Whether an entry is a file with a wanted extension. -/
def isAccepted (settings : Settings) (fs : FileSystem) (entry : Walk.Entry) : Bool :=
  (fs.contentAt? entry.location).isSome && settings.accepts entry.path

/-- Whether a file found below an argument is left out. -/
def isIgnored (settings : Settings) (argument file : Path) : Bool :=
  settings.ignores (file.relativeTo argument)

/-- The files among what a walk met, those that are left out and the others, up to the first
directory that cannot be listed. -/
def sift (settings : Settings) (fs : FileSystem) (argument : Path) :
    List (Except Walk.Fault Walk.Entry) → List Path × Except Failure (List Path)
  | [] => ([], .ok [])
  | .error fault :: _ => ([], .error (.unlisted fault))
  | .ok entry :: rest =>
      let (ignored, files) := sift settings fs argument rest
      if !isAccepted settings fs entry then (ignored, files)
      else if isIgnored settings argument entry.path then (entry.path :: ignored, files)
      else (ignored, files.map (entry.path :: ·))

/-- The files below a directory, those that are left out and the others. -/
def search (settings : Settings) (fs : FileSystem) (argument : Path) :
    List Path × Except Failure (List Path) :=
  match Walk.along fs (Walk.patternBelow argument) with
  | .error e => ([], .error (.invalidPattern (Walk.patternBelow argument) e))
  | .ok met => sift settings fs argument met

/-- The files that arguments stand for, unsorted, or the first failure; and the files that were left
out until then. -/
def gather (settings : Settings) (fs : FileSystem) :
    List Path → List Path × Except Failure (List Path)
  | [] => ([], .ok [])
  | argument :: rest =>
      match target fs argument with
      | .missing => ([], .error (.missing argument))
      | .file =>
          let (ignored, files) := gather settings fs rest
          (ignored, files.map (argument :: ·))
      | .directory =>
          match search settings fs argument with
          | (left, .error failure) => (left, .error failure)
          | (left, .ok kept) =>
              let (ignored, files) := gather settings fs rest
              (left ++ ignored, files.map (kept ++ ·))

/-- Drops the paths that equal the one before them. -/
def dropRepeats : List Path → List Path
  | [] => []
  | path :: rest => path :: after path rest
where
  after (last : Path) : List Path → List Path
    | [] => []
    | path :: rest => if last.isSame path then after last rest else path :: after path rest

/-- Sorts paths by their components and keeps the first of equal ones. -/
def sorted (paths : List Path) : List Path :=
  dropRepeats (paths.mergeSort fun a b => (a.compare b).isLE)

/-- The files that arguments stand for, or the first failure. -/
def collect (settings : Settings) (fs : FileSystem) (arguments : List Path) :
    Except Failure (List Path) :=
  (gather settings fs arguments).2.map sorted

/-- The files that were left out, in the order in which they were met. -/
def ignored (settings : Settings) (fs : FileSystem) (arguments : List Path) : List Path :=
  (gather settings fs arguments).1

end Discovery

end Concise
