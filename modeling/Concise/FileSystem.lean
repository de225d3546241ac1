import Concise.Path

/-!
A tree of files without links.

* A `Location` says where something is, `FileSystem.locate` where a path leads: `..` goes back, and
  whatever is gone through must be a directory.
* `FileSystem.read` and `FileSystem.write` work on what a path leads to.
* Writing replaces the contents of a file that exists, and always succeeds.
* `FileSystem.list` gives the names in a directory, unless it may not be listed.
-/

namespace Concise

/-- The names of a place from the root down. -/
abbrev Location := List String

/-- What a file holds. -/
inductive Content where
  | text (text : String)
  /-- Bytes that are not the encoding of a text. -/
  | binary (bytes : List UInt8)
deriving DecidableEq, Inhabited

/-- Why a file cannot be read, or a directory not be listed. -/
inductive FileFault where
  | notFound
  | notDirectory
  | isDirectory
  | notText
  | denied
deriving DecidableEq, Inhabited

/-- The text of a fault. -/
def FileFault.message : FileFault → String
  | notFound => "No such file or directory (os error 2)"
  | notDirectory => "Not a directory (os error 20)"
  | isDirectory => "Is a directory (os error 21)"
  | notText => "stream did not contain valid UTF-8"
  | denied => "Permission denied (os error 13)"

/-- The text that contents are. -/
def Content.asText : Content → Except FileFault String
  | text contents => .ok contents
  | binary _ => .error .notText

/-- Files and directories by their locations. -/
structure FileSystem where
  files : List (Location × Content) := []
  /-- The directories besides the root. -/
  directories : List Location := []
  /-- Where paths begin that do not begin with a slash. -/
  workingDirectory : Location := []
  /-- The directories that may be gone through but not listed. -/
  closed : List Location := []
deriving DecidableEq, Inhabited

namespace Location

/-- Where a piece of a path leads. -/
def step (location : Location) (piece : String) : Location :=
  match piece with
  | "" => location
  | "." => location
  | ".." => location.dropLast
  | name => location ++ [name]

/-- The names that lead from a location down to another one below it. -/
def below? : Location → Location → Option Location
  | [], names => some names
  | a :: as, b :: bs => if a = b then below? as bs else none
  | _ :: _, [] => none

/-- The name of a location in the given one, if it is right there. -/
def child? (location place : Location) : Option String :=
  match location.below? place with
  | some [name] => some name
  | _ => none

/-- The directories on the way to a location, the location included. -/
def ancestors (location : Location) : List Location :=
  (List.range location.length).map fun n => location.take (n + 1)

end Location

namespace FileSystem

/-- The contents of the file at a location. -/
def contentAt? (fs : FileSystem) (location : Location) : Option Content :=
  List.lookup location fs.files

/-- Whether there is a directory at a location. -/
def isDirectoryAt (fs : FileSystem) (location : Location) : Bool :=
  location.isEmpty || fs.directories.contains location

/-- Follows the pieces of a path from a location. -/
def follow (fs : FileSystem) (location : Location) : List String → Except FileFault Location
  | [] => .ok location
  | piece :: rest =>
      if fs.isDirectoryAt location then fs.follow (location.step piece) rest
      else if (fs.contentAt? location).isSome then .error .notDirectory
      else .error .notFound

/-- Where a path leads; there need not be anything. -/
def locate (fs : FileSystem) (path : Path) : Except FileFault Location :=
  if path.isEmpty then .error .notFound
  else
    match path.pieces with
    | "" :: rest => fs.follow [] rest
    | pieces => fs.follow fs.workingDirectory pieces

/-- The contents of a file. -/
def read (fs : FileSystem) (path : Path) : Except FileFault Content := do
  let location ← fs.locate path
  match fs.contentAt? location with
  | some content => .ok content
  | none => if fs.isDirectoryAt location then .error .isDirectory else .error .notFound

/-- The text of a file. -/
def readText (fs : FileSystem) (path : Path) : Except FileFault String := do
  (← fs.read path).asText

/-- The location of a file. -/
def fileAt? (fs : FileSystem) (path : Path) : Option Location :=
  match fs.locate path with
  | .ok location => if (fs.contentAt? location).isSome then some location else none
  | .error _ => none

/-- The location of a directory. -/
def directoryAt? (fs : FileSystem) (path : Path) : Option Location :=
  match fs.locate path with
  | .ok location => if fs.isDirectoryAt location then some location else none
  | .error _ => none

/-- Replaces the contents of the file at a location. -/
def replaceAt (fs : FileSystem) (location : Location) (content : Content) : FileSystem :=
  { fs with
    files := fs.files.map fun file => if file.1 = location then (location, content) else file }

/-- Replaces the text of a file. -/
def write (fs : FileSystem) (path : Path) (text : String) : FileSystem :=
  match fs.fileAt? path with
  | some location => fs.replaceAt location (.text text)
  | none => fs

/-! ### Listing -/

/-- Puts a name where it belongs among names in order, unless it is there. -/
def insertName (name : String) : List String → List String
  | [] => [name]
  | other :: rest =>
      match Ord.compare name other with
      | .lt => name :: other :: rest
      | .eq => other :: rest
      | .gt => other :: insertName name rest

/-- Where there is something, besides the root. -/
def locations (fs : FileSystem) : List Location := fs.files.map (·.1) ++ fs.directories

/-- The names in a directory, in order. -/
def names (fs : FileSystem) (location : Location) : List String :=
  (fs.locations.filterMap location.child?).foldr insertName []

/-- Lists a directory. -/
def list (fs : FileSystem) (location : Location) : Except FileFault (List String) :=
  if fs.closed.contains location then .error .denied else .ok (fs.names location)

/-- The greatest number of names on the way to something. -/
def depth (fs : FileSystem) : Nat :=
  fs.locations.foldr (fun location n => max location.length n) 0

/-! ### Building -/

/-- The location that a path names if it leads through directories only. -/
def destination (fs : FileSystem) (path : Path) : Location :=
  match path.pieces with
  | "" :: rest => rest.foldl Location.step []
  | pieces => pieces.foldl Location.step fs.workingDirectory

/-- Makes a directory and those that it is in. -/
def makeDirectory (fs : FileSystem) (location : Location) : FileSystem :=
  { fs with directories :=
      fs.directories ++ location.ancestors.filter fun d => !fs.directories.contains d }

/-- Makes or replaces a file, and makes the directories that it is in. -/
def create (fs : FileSystem) (location : Location) (content : Content) : FileSystem :=
  if (fs.contentAt? location).isSome then fs.replaceAt location content
  else
    let fs := fs.makeDirectory location.dropLast
    { fs with files := fs.files ++ [(location, content)] }

/-- No files, and a working directory. -/
def empty (workingDirectory : Location) : FileSystem :=
  { workingDirectory, directories := workingDirectory.ancestors }

end FileSystem

end Concise
