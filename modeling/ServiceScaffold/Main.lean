import ServiceScaffold.CommandLine.Places
import ServiceScaffold.CommandLine.Program
import Std.Time.DateTime.Timestamp

/-!
# The executable

Copies the places that the command looks at onto a disk, runs the program on it, and keeps what it
changed.
-/

namespace ServiceScaffold.Executable

open CommandLine

/-- The file name of a trail. -/
def fileName (trail : Trail) : String := String.ofList ('/' :: Text.joinWith ['/'] trail)

/-- Copies what stands at a trail, with all that is below it. -/
partial def copyBelow (trail : Trail) (d : Disk) : IO Disk := do
  let place := (← IO.currentDir) / fileName trail
  if ← place.isDir then
    let entries ← try pure (some (← place.readDir)) catch _ => pure none
    let d := d.put trail (.directory entries.isSome)
    (entries.getD #[]).foldlM (fun d e => copyBelow (trail ++ [e.fileName.toList]) d) d
  else if ← place.pathExists then
    let bytes ← try IO.FS.readBinFile place catch _ => pure .empty
    pure (d.put trail (.file bytes))
  else pure d

/-- Copies what stands at a trail, with the directories above it. -/
def copy (trail : Trail) (d : Disk) : IO Disk := do
  let here ← IO.currentDir
  let above := (List.range trail.length).tail.map trail.take
  let d ← above.foldlM (fun d t => do
    if ← (here / fileName t).isDir then pure (d.put t (.directory true)) else pure d) d
  copyBelow trail d

/-- Copies the places that a command looks at.  The second time, its settings are known. -/
def copyFor (command : Command) (d : Disk) : IO Disk := do
  let once (d : Disk) : IO Disk :=
    (command.places d).foldlM (fun d p => copy (d.trailOf p) d) d
  once (← once d)

/-- Keeps what was changed. -/
def keep (changes : List (Trail × DiskEntry)) : IO Unit := do
  for (trail, entry) in changes do
    match entry with
    | .directory _ => IO.FS.createDirAll (fileName trail)
    | .file bytes => IO.FS.writeBinFile (fileName trail) bytes

/-- The values of the variables that the program asks for. -/
def environment : IO (List (String × String)) := do
  let names := [Log.levelVariable, Log.formatVariable, Log.targetsVariable, Log.placesVariable]
  names.filterMapM fun name => do pure ((← IO.getEnv name).map (name, ·))

end ServiceScaffold.Executable

open ServiceScaffold in
/-- Runs the program on the files of the machine. -/
def main (arguments : List String) : IO UInt32 := do
  let now ← Std.Time.Timestamp.now
  let values ← Executable.environment
  let home := ((← IO.currentDir).components.filter (!·.isEmpty)).map String.toList
  let before ← match CommandLine.Command.ofArguments arguments with
    | .ok command => Executable.copyFor command (.startingAt home)
    | .error _ => pure (.startingAt home)
  let done := CommandLine.finish ⟨now.toSecondsSinceUnixEpoch.val.toNat⟩
    (Keyed.lookup · values) arguments before
  Executable.keep (before.changes done.disk)
  done.output.forM IO.println
  done.errors.forM IO.eprintln
  return done.status.toUInt32
