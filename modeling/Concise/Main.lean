import Concise.Command

/-!
The command on the files of the machine.

What the arguments name is listed, the files to be processed are read, the command runs on that, and
the files that it changed are written. Nothing is decided here.
-/

namespace Concise

namespace Machine

/-- The contents that bytes are. -/
def contentOf (bytes : ByteArray) : Content :=
  match String.fromUTF8? bytes with
  | some text => .text text
  | none => .binary bytes.toList

/-- The paths on the way to a path, the path itself last. -/
def beginnings (path : Path) : List Path :=
  let pieces := path.pieces
  ((List.range pieces.length).map fun n => "/".intercalate (pieces.take (n + 1))).filter (· != "")

/-- Whether there is a directory at a path. -/
def isDirectory (path : Path) : IO Bool := do
  ((← IO.currentDir) / path).isDir

/-- Lists what is below a directory; files are left empty. -/
partial def listBelow (fs : FileSystem) (path : Path) : IO FileSystem := do
  let location := fs.destination path
  let mut fs := fs.makeDirectory location
  match ← ((← IO.currentDir) / path).readDir.toBaseIO with
  | .error _ => return { fs with closed := location :: fs.closed }
  | .ok entries =>
      for entry in entries do
        let inner := Path.join path entry.fileName
        if ← isDirectory inner then fs ← listBelow fs inner
        else fs := fs.create (fs.destination inner) (.text "")
      return fs

/-- Lists what is at a path, and the directories on the way. -/
def list (fs : FileSystem) (path : Path) : IO FileSystem := do
  let mut fs := fs
  for beginning in beginnings path do
    if ← isDirectory beginning then fs := fs.makeDirectory (fs.destination beginning)
  if ← isDirectory path then listBelow fs path
  else if ← ((← IO.currentDir) / path).pathExists then
    return fs.create (fs.destination path) (.text "")
  else return fs

/-- Reads a file that was listed. -/
def readInto (fs : FileSystem) (path : Path) : IO FileSystem := do
  if (fs.fileAt? path).isSome then
    return fs.create (fs.destination path) (contentOf (← IO.FS.readBinFile path))
  else return fs

/-- What the command needs of the files: those that are processed, and the configuration. -/
def survey (fs : FileSystem) (arguments : Arguments) : IO FileSystem := do
  let mut fs := fs
  for path in arguments.config.toList do
    fs ← readInto (← list fs path) path
  if arguments.readsStdin then return fs
  for path in arguments.paths do
    fs ← list fs path
  match Command.settings fs arguments with
  | .error _ => return fs
  | .ok settings =>
      match Discovery.collect settings fs arguments.paths with
      | .error _ => return fs
      | .ok paths =>
          for path in paths do
            fs ← readInto fs path
          return fs

/-- The environment and the standard input. -/
def surroundings (arguments : Arguments) : IO Surroundings := do
  let names := [Command.logVariable, Command.generalLogVariable, Command.logFormatVariable]
  let values ← names.mapM fun name => do return (name, ← IO.getEnv name)
  let input ←
    if arguments.readsStdin then contentOf <$> (← IO.getStdin).readBinToEnd
    else pure (.text "")
  return { lookUp? := fun name => (values.lookup name).join, input }

/-- Writes the files that differ from what they were. -/
def writeBack (before after : FileSystem) : IO Unit := do
  for (location, content) in after.files do
    if before.contentAt? location != some content then
      match content with
      | .text text => IO.FS.writeFile ("/" ++ "/".intercalate location) text
      | .binary _ => pure ()

/-- Prints a line to the standard error. -/
def printLine : LogLine → IO Unit
  | .text line => IO.eprintln line
  | .json line => IO.eprintln line

end Machine

end Concise

open Concise in
/-- Runs the command. -/
def main (argv : List String) : IO UInt32 := do
  let here := FileSystem.empty ((Path.pieces (toString (← IO.currentDir))).filter (· != ""))
  let (surroundings, before) ←
    match Arguments.parse argv with
    | .ok arguments => do
        pure (← Machine.surroundings arguments, ← Machine.survey here arguments)
    | .error _ => pure ({}, here)
  let result := Command.execute surroundings before argv
  Machine.writeBack before result.files
  for line in result.lines do
    Machine.printLine line
  IO.print result.output
  return result.exitCode.toUInt32
