import Concise.FileSystem
import Concise.Glob

/-!
The walk along a pattern.

The pattern is taken apart at its slashes, and the pieces are patterns of their own. A piece without
wildcards leads on by itself, if there is something. A piece with wildcards is matched against the
names in a directory, which has to be listed for that. The piece `**` stands for any number of
directories one in the other.

* `Walk.find` goes along some pieces from an entry on.
* `Walk.along` takes a pattern apart, and begins at the root or in the working directory.
* `Walk.patternBelow` is the pattern for all that is below a directory. The path of the directory is
  escaped in it.
-/

namespace Concise

namespace Path

/-- A path continued by a piece. -/
def join (base piece : String) : Path :=
  if base.endsWith "/" then base ++ piece else base ++ "/" ++ piece

/-- A path continued by a piece, where `.` gives way to the piece. Nothing follows `.` and two
slashes. -/
def extend? (base piece : String) : Option Path :=
  if base == "." then if piece.isEmpty then none else some piece
  else some (join base piece)

end Path

namespace Walk

/-- What the walk has come to: how it is spelled, and where it is. -/
structure Entry where
  path : Path
  location : Location
deriving DecidableEq, Inhabited

/-- A directory that cannot be listed. -/
structure Fault where
  path : Path
  fault : FileFault
deriving DecidableEq, Inhabited

/-- The text of a fault. -/
def Fault.message (f : Fault) : String :=
  "attempting to read `" ++ f.path ++ "` resulted in an error: " ++ f.fault.message

namespace Entry

/-- What a piece without wildcards leads to, if there is something. -/
def follow? (fs : FileSystem) (entry : Entry) (piece : String) : Option Entry := do
  let path ← Path.extend? entry.path piece
  let location := entry.location.step piece
  if fs.isDirectoryAt entry.location &&
      ((fs.contentAt? location).isSome || fs.isDirectoryAt location) then
    some { path, location }
  else none

/-- What has a name in a directory. -/
def child? (entry : Entry) (name : String) : Option Entry :=
  (Path.extend? entry.path name).map fun path => { path, location := entry.location ++ [name] }

end Entry

/-- What the walk meets from an entry on, along the pieces of a pattern: entries that match, and
directories that cannot be listed. The number bounds how often it goes on. -/
def find (fs : FileSystem) : Nat → List Glob → Entry → List (Except Fault Entry)
  | _, [], entry => [.ok entry]
  | 0, _ :: _, _ => []
  | n + 1, glob :: globs, entry =>
      match glob.plain? with
      | some piece =>
          match entry.follow? fs piece with
          | some next => find fs n globs next
          | none => []
      | none =>
          if fs.isDirectoryAt entry.location then
            match fs.list entry.location with
            | .error fault => [.error { path := entry.path, fault }]
            | .ok names =>
                names.flatMap fun name =>
                  match entry.child? name with
                  | some child =>
                      if glob.isRecursive then
                        -- an entry may end what `**` stands for, and be gone through by it as well
                        (match globs with
                          | [] => if fs.isDirectoryAt child.location then [.ok child] else []
                          | next :: rest =>
                              if next.matchesPath name then find fs n rest child else []) ++
                          find fs n (glob :: globs) child
                      else if glob.matchesPath name then find fs n globs child
                      else []
                  | none => []
          else []

/-- How often the walk goes on at most: for each piece it may go down to the deepest place. -/
def bound (fs : FileSystem) (globs : List Glob) : Nat := globs.length * (fs.depth + 1)

/-- Where the walk along the pieces of a pattern begins, and the pieces after that. -/
def start (fs : FileSystem) : List String → Entry × List String
  | "" :: rest => ({ path := "/", location := [] }, rest)
  | pieces => ({ path := ".", location := fs.workingDirectory }, pieces)

/-- The walk along a pattern, or what is wrong with the pattern. -/
def along (fs : FileSystem) (pattern : String) : Except Glob.Error (List (Except Fault Entry)) := do
  let (entry, pieces) := start fs (Path.pieces pattern)
  let globs ← pieces.mapM Glob.parse
  return find fs (bound fs globs) globs entry

/-- The pattern for what is below a directory, at any depth. It is irreducible because whoever walks
along it should not have to read it. -/
@[irreducible]
def patternBelow (directory : Path) : String :=
  Path.join (Path.join (Glob.escape directory) "**") "*"

end Walk

end Concise
