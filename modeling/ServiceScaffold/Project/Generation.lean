import ServiceScaffold.Instant
import ServiceScaffold.Project.SchemaFile
import ServiceScaffold.Project.Settings
import ServiceScaffold.Service.Encoding
import ServiceScaffold.Template.Engine

/-!
# Generation

A request names a schema and an output directory.  Its service and the artifacts of its settings
make up a list of tasks, one for each file (`Request.tasks`), which are carried out in order up to
the first that fails (`emit`).  No task leads out of the output directory, a file that is there is
written over only by force, and a dry run writes nothing (`Task.emit`).
-/

namespace ServiceScaffold.Project

open Template (Engine Workspace isValidName)

/-- What is to be generated.  What a request leaves open is taken from the settings. -/
structure Request where
  schema : FilePath
  /-- The directory of the generated files. -/
  output : FilePath
  templates : Option FilePath := none
  framework : Option String := none
  serviceName : Option String := none
  targetVersion : Option String := none
  settingsFile : Option FilePath := none
  /-- Files that are there are written over. -/
  force : Bool := false
  /-- Everything is rendered and nothing is written. -/
  dryRun : Bool := false
  deriving Repr, Inhabited

/-! ### Tasks -/

/-- A file to make: its template, the template of its path, and the data for both. -/
structure Task where
  template : String
  output : String
  data : Json
  deriving Inhabited

/-- The version of the generator. -/
def generatorVersion : String := "0.1.0-alpha.1"

/-- What templates learn about a generation. -/
def metadata (now : Instant) (targetVersion : String) (schema : FilePath) : Json :=
  .obj [("generated_at", .str now.text), ("generator_version", .str generatorVersion),
    ("target_version", .str targetVersion), ("schema_path", .str schema.text)]

/-- What the templates of an artifact are rendered with. -/
def taskData (about : Json) (service : Service) (resource : Option Resource) : Json :=
  .obj (("service", service.encode) :: (resource.map fun r => ("resource", r.encode)).toList ++
    [("meta", about)])

/-- The files of an artifact. -/
def Artifact.tasks (about : Json) (service : Service) (a : Artifact) : List Task :=
  if a.perResource then
    service.resources.map fun r => ⟨a.template, a.output, taskData about service (some r)⟩
  else [⟨a.template, a.output, taskData about service none⟩]

namespace Request

/-- The name of the service. -/
def nameIn (r : Request) (s : Settings) : String :=
  ((r.serviceName.orElse fun _ => s.serviceName).getD (Service.nameOf r.schema))

/-- The version of the generated project. -/
def targetVersionIn (r : Request) (s : Settings) : String :=
  (r.targetVersion.orElse fun _ => s.targetVersion).getD Settings.defaultTargetVersion

/-- The engine that finds the templates, and renders them by some renderer. -/
def engine (r : Request) (s : Settings) (renderer : Template.Renderer) : Engine where
  base := (r.templates.orElse fun _ => s.templates).getD Settings.defaultTemplates
  framework := r.framework.orElse fun _ => s.framework
  renderer

/-- All files to make, in order. -/
def tasks (r : Request) (now : Instant) (s : Settings) (service : Service) : List Task :=
  s.effectiveArtifacts.flatMap
    (Artifact.tasks (metadata now (r.targetVersionIn s) r.schema) service)

end Request

/-! ### Carrying out tasks -/

/-- What became of a task, with the path of its file. -/
inductive Outcome where
  | written (path : FilePath)
  /-- The file was there and was left as it was. -/
  | skipped (path : FilePath)
  /-- The file would have been written. -/
  | planned (path : FilePath)
  deriving DecidableEq, Repr, Inhabited

namespace Outcome

/-- The path of a file that was written. -/
def written? : Outcome → Option FilePath
  | written path => some path
  | _ => none

/-- The path of a file that was left as it was. -/
def skipped? : Outcome → Option FilePath
  | skipped path => some path
  | _ => none

/-- The path of a file that would have been written. -/
def planned? : Outcome → Option FilePath
  | planned path => some path
  | _ => none

/-- The line that shows an outcome. -/
def line : Outcome → String
  | written path => "✅ Generated " ++ path.quotedText
  | skipped path =>
    "⚠️  Skipping existing file: " ++ path.quotedText ++ " (use --force to overwrite)"
  | planned path => "ℹ️  Would write " ++ path.quotedText

end Outcome

/-- The path of a task leads out of the output directory. -/
def escapingPath (t : Task) (below : String) : Chain :=
  .ofText ("Output path `" ++ below ++ "` for template `" ++ t.template ++
    "` escapes the output directory")

/-- The path of the file that a task makes in a directory. -/
def Task.path (e : Engine) (directory : FilePath) (t : Task) : Except Chain FilePath := do
  let rendered ← Chain.ofResult (e.renderSource ("output path of " ++ t.template) t.output t.data)
  let below := String.ofList (Text.trim rendered.toList)
  if isValidName below then pure (directory.join (.ofString below))
  else throw (escapingPath t below)

/-- Carries out a task. -/
def Task.emit (e : Engine) (r : Request) (t : Task) (w : Workspace Disk) :
    Except Chain Outcome × Workspace Disk :=
  match t.path e r.output with
  | .error c => (.error c, w)
  | .ok path =>
    if r.dryRun then
      match (e.render t.template t.data).on w with
      | (.error f, w) => (.error (.ofFailure f), w)
      | (.ok _, w) => (.ok (.planned path), w)
    else if w.store.pathExists path && !r.force then (.ok (.skipped path), w)
    else
      match (e.renderToFile t.template path t.data).on w with
      | (.error f, w) =>
        (.error ((Chain.ofFailure f).context ("Failed to generate " ++ path.text)), w)
      | (.ok _, w) => (.ok (.written path), w)

/-- What became of tasks, up to the first that failed. -/
structure Emission where
  outcomes : List Outcome
  failure : Option Chain
  workspace : Workspace Disk

/-- Carries out tasks in order, up to the first that fails. -/
def emit (e : Engine) (r : Request) : List Task → Workspace Disk → Emission
  | [], w => ⟨[], none, w⟩
  | t :: rest, w =>
    match t.emit e r w with
    | (.error c, w) => ⟨[], some c, w⟩
    | (.ok outcome, w) =>
      let later := emit e r rest w
      { later with outcomes := outcome :: later.outcomes }

/-! ### The whole generation -/

/-- What a generation leaves to others: how settings are read and how templates are rendered. -/
structure Backend where
  toml : Toml.Reader
  renderer : Template.Renderer

/-- The reader of `Toml.parse?` and the renderer that evaluates templates. -/
def Backend.standard : Backend := ⟨.standard, .standard⟩

/-- What a successful generation was about. -/
structure Summary where
  serviceName : String
  /-- Number of the resources. -/
  resources : Nat
  deriving DecidableEq, Repr, Inhabited

/-- What a generation did up to its end or its failure. -/
structure Generation where
  disk : Disk
  /-- The declarations that were skipped. -/
  warnings : List Failure := []
  outcomes : List Outcome := []
  result : Except Chain Summary

namespace Generation

/-- The files that were written. -/
def written (g : Generation) : List FilePath := g.outcomes.filterMap Outcome.written?

/-- The files that were left as they were. -/
def skipped (g : Generation) : List FilePath := g.outcomes.filterMap Outcome.skipped?

/-- The files that a dry run would have written. -/
def planned (g : Generation) : List FilePath := g.outcomes.filterMap Outcome.planned?

/-- The line that shows a warning. -/
def warningLine (f : Failure) : String := "⚠️  " ++ f.report.text

/-- The lines that are printed on the way. -/
def lines (g : Generation) : List String :=
  g.warnings.map warningLine ++ g.outcomes.map Outcome.line

end Generation

/-- Generates a project.  Everything that the tasks need is settled before the first one. -/
def generate (now : Instant) (r : Request) (d : Disk) (backend : Backend := .standard) :
    Generation :=
  match Settings.effective d r.settingsFile r.schema backend.toml with
  | .error c => { disk := d, result := .error c }
  | .ok settings =>
    match SchemaFile.extraction d r.schema with
    | .error c => { disk := d, result := .error c }
    | .ok found =>
      match Service.ofSchema (r.nameIn settings) found.schema with
      | .error f => { disk := d, warnings := found.warnings, result := .error (.ofFailure f) }
      | .ok service =>
        let made := emit (r.engine settings backend.renderer) r (r.tasks now settings service)
          ⟨d, .empty⟩
        { disk := made.workspace.store, warnings := found.warnings, outcomes := made.outcomes,
          result := match made.failure with
            | some c => .error c
            | none => .ok ⟨r.nameIn settings, service.resources.length⟩ }

end ServiceScaffold.Project
