import ServiceScaffold.Schema.Extraction
import ServiceScaffold.Service.Lowering
import ServiceScaffold.Store.Disk

/-!
# Schema files

What a schema file declares (`SchemaFile.extraction`), and the service that it describes
(`SchemaFile.service`).
-/

namespace ServiceScaffold.Project.SchemaFile

/-- The text of a schema file. -/
def read (d : Disk) (file : FilePath) : Except Chain String :=
  (d.readText file).mapError fun p =>
    (Chain.ofText p.text).context ("Failed to read schema: " ++ file.text)

/-- What a schema file declares. -/
def extraction (d : Disk) (file : FilePath) : Except Chain Extraction := do
  Chain.ofResult (Schema.ofSource (← read d file) file.text)

/-- The service that a schema file describes, under its own name or a given one. -/
def service (d : Disk) (file : FilePath) (name : Option String) : Except Chain Service := do
  Chain.ofResult (Service.ofSchema (name.getD (Service.nameOf file)) (← extraction d file).schema)

end ServiceScaffold.Project.SchemaFile
