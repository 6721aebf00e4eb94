import ServiceScaffold.CommandLine.Command

/-!
# What a command looks at

The disk on which a command runs need not hold more than the places that the command looks at
(`Command.places`), and of a disk only what a command changed has to be kept (`Disk.changes`).
-/

namespace ServiceScaffold

/-- The entries of `after` that are new or not as they were. -/
def Disk.changes (before after : Disk) : List (Trail × DiskEntry) :=
  after.entries.filter fun (trail, entry) => !decide (before.standing? trail = some entry)

namespace CommandLine

/-- The places that a command looks at, with all that is below them.  Where the templates are may be
known only after the settings file is on the disk. -/
def Command.places (d : Disk) : Command → List FilePath
  | generate r =>
    let beside := r.schema.parent?.map fun directory => directory.join Project.Settings.fileName
    let settings := (Project.Settings.effective d r.settingsFile r.schema).toOption.getD {}
    [r.schema] ++ (r.settingsFile.orElse fun _ => beside).toList ++
      [(r.engine settings .standard).base, r.output]
  | extract schema _ => [schema]
  | map schema _ _ => [schema]
  | lint schema _ _ => [schema]
  | templates directory _ => [directory]

end CommandLine

end ServiceScaffold
