import Std.Time.DateTime.Timestamp
import Remedy.Command.Perform
import Remedy.Files.Snapshot
/-!
# The command line

The program sees the files that standard input names, one a line, so that
a run is `find . -type f | remedy fix .`. It reads them, carries out the
command, and writes what the command changed.
-/

namespace Remedy

namespace Command

/-- How the program is called. -/
def usage : String :=
  "Usage: find . -type f | remedy [--verbose] (fix [PATH] | codemods | init [PATH]) [OPTIONS]"

/-- The lines of a stream. -/
partial def readLines (input : IO.FS.Stream) : IO (List String) := do
  let line ← input.getLine
  if line.isEmpty then return []
  return Text.trimEndWith (· = '\n') line :: (← readLines input)

/-- The disk with the files that a stream names. -/
def readDisk (input : IO.FS.Stream) : IO Disk := do
  let folder := toString (← IO.currentDir)
  let names := (← readLines input).filter fun name => !name.isEmpty
  let files ← names.mapM fun (name : String) => do
    let content ← IO.FS.readBinFile name
    return (Path.mk name, content.data.toList)
  return .ofFiles ⟨folder⟩ files

/-- Writes the files in which a disk differs from another one. -/
def writeChanges (before after : Disk) : IO Unit := do
  let (written, removed) := before.changes after
  for (p, content) in written do
    IO.FS.writeBinFile p.text ⟨content.toArray⟩
  for p in removed do
    IO.FS.removeFile p.text

/-- Carries out a command on the files that standard input names. -/
def carryOut (i : Invocation) : IO UInt32 := do
  let disk ← readDisk (← IO.getStdin)
  let now := (← Std.Time.Timestamp.now).toMillisecondsSinceUnixEpoch.val
  let outcome := perform disk (.fixed now) .never i
  writeChanges disk outcome.disk
  IO.print outcome.printed
  match outcome.failure with
  | none => return 0
  | some e =>
    IO.eprintln s!"Error: {e.message}"
    return 1

end Command

end Remedy

/-- The program. -/
def main (words : List String) : IO UInt32 := do
  match Remedy.Command.Invocation.ofWords words with
  | .ok i => Remedy.Command.carryOut i
  | .error .help =>
    IO.println Remedy.Command.usage
    return 0
  | .error .version =>
    IO.println Remedy.RunInfo.version
    return 0
  | .error _ =>
    IO.eprintln Remedy.Command.usage
    return 2
