import ServiceScaffold.Failure
import ServiceScaffold.Project.Artifact
import ServiceScaffold.Store.Disk
import ServiceScaffold.Toml.Parser

/-!
# Settings of a project

A project may have a settings file, either one that is asked for or the one beside its schema
(`Settings.pathFor?`).  What it does not set stays open; `Settings.effective` gives the settings
under which a project is generated.  The file is read by any reader of documents.
-/

namespace ServiceScaffold.Project

/-- The settings of a project. -/
structure Settings where
  serviceName : Option String := none
  templates : Option FilePath := none
  framework : Option String := none
  targetVersion : Option String := none
  artifacts : List Artifact := []
  deriving DecidableEq, Repr, Inhabited

namespace Settings

/-- The name of a settings file. -/
def fileName : FilePath := .ofString "schemaforge.toml"

/-- The template directory of a project that sets none. -/
def defaultTemplates : FilePath := .ofString "templates"

/-- The version of a generated project that sets none. -/
def defaultTargetVersion : String := "0.1.0"

/-- The listed artifacts, or the standard ones if none are listed. -/
def effectiveArtifacts (s : Settings) : List Artifact :=
  if s.artifacts.isEmpty then Artifact.standard else s.artifacts

/-! ### Reading -/

/-- The text of a field that may be missing. -/
def text? (key : String) (v : Toml) : Option (Option String) :=
  match v.field? key with
  | none => some none
  | some (.text s) => some (some s)
  | some _ => none

/-- The artifacts of a document. -/
def artifacts? (v : Toml) : Option (List Artifact) :=
  match v.field? "artifacts" with
  | none => some []
  | some (.array items) => items.mapM Artifact.ofToml?
  | some _ => none

/-- Reads settings.  Fields of other names do not count. -/
def ofToml? (v : Toml) : Option Settings := do
  pure ⟨← text? "service_name" v, (← text? "template_dir" v).map .ofString,
    ← text? "framework" v, ← text? "target_version" v, ← artifacts? v⟩

/-- Takes a relative template directory as seen from the directory of the settings file. -/
def seenFrom (file : FilePath) (s : Settings) : Settings :=
  match file.parent? with
  | some directory => { s with templates := s.templates.map directory.join }
  | none => s

/-- The settings of a file, if there is one. -/
def load (d : Disk) (file : FilePath) (reader : Toml.Reader := .standard) :
    Except Chain (Option Settings) :=
  if d.pathExists file then
    match d.readText file with
    | .error p =>
      .error ((Chain.ofText p.text).context ("Failed to read generator config: " ++ file.text))
    | .ok source =>
      match (reader.parse? source).bind ofToml? with
      | some s => .ok (some (s.seenFrom file))
      | none =>
        .error ((Chain.ofText (reader.problem source)).context
          ("Failed to parse generator config: " ++ file.text))
  else .ok none

/-! ### Finding -/

/-- The settings file beside a schema, if there is one. -/
def beside? (d : Disk) (schema : FilePath) : Option FilePath :=
  (schema.parent?.map fun directory => directory.join fileName).filter d.pathExists

/-- The settings file: the one that is asked for, whether it is there or not, or else the one beside
the schema. -/
def pathFor? (d : Disk) (asked : Option FilePath) (schema : FilePath) : Option FilePath :=
  asked.orElse fun _ => beside? d schema

/-- The settings of a project.  A file that is asked for has to be there. -/
def effective (d : Disk) (asked : Option FilePath) (schema : FilePath)
    (reader : Toml.Reader := .standard) : Except Chain Settings :=
  match pathFor? d asked schema with
  | none => .ok {}
  | some file =>
    match load d file reader with
    | .error c => .error c
    | .ok (some s) => .ok s
    | .ok none =>
      if asked.isSome then .error (.ofText ("Generator config not found: " ++ file.text))
      else .ok {}

end Settings

end ServiceScaffold.Project
