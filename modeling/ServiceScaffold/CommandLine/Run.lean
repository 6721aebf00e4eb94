import ServiceScaffold.CommandLine.Command
import ServiceScaffold.Lint

/-!
# Running commands

A command works on a disk and prints lines (`Command.run`).  What was done and printed before a
failure stays.
-/

namespace ServiceScaffold.CommandLine

open Project (Generation SchemaFile.extraction SchemaFile.service generate)
open Template (Engine)

/-- What a command did. -/
structure Run where
  disk : Disk
  /-- The lines on the standard output. -/
  output : List String := []
  /-- The lines on the error output. -/
  notes : List String := []
  failure : Option Chain := none
  deriving Inhabited

/-- A run that only prints, or fails. -/
def Run.printing (d : Disk) : Except Chain (List String) → Run
  | .ok lines => { disk := d, output := lines }
  | .error c => { disk := d, failure := some c }

/-- The decimal text of a count. -/
def countText (n : Nat) : String := Lint.countText n

/-! ### The commands -/

/-- The last line of a successful generation. -/
def summaryLine (r : Project.Request) (g : Generation) (s : Project.Summary) : String :=
  if r.dryRun then
    "ℹ️  Dry run: " ++ countText g.planned.length ++ " file(s) would be written to " ++
      r.output.quotedText
  else
    "✅ Generated service `" ++ s.serviceName ++ "` (" ++ countText s.resources ++
      " resource(s)): " ++ countText g.written.length ++ " written, " ++
      countText g.skipped.length ++ " skipped"

/-- Generates a project. -/
def runGenerate (now : Instant) (r : Project.Request) (d : Disk) : Run :=
  let g := generate now r d
  match g.result with
  | .ok s => { disk := g.disk, output := g.lines ++ [summaryLine r g s] }
  | .error c => { disk := g.disk, output := g.lines, failure := some c }

/-- Prints the schema of a file. -/
def runExtract (schema : FilePath) (format : DumpFormat) (d : Disk) : Run :=
  match SchemaFile.extraction d schema with
  | .error c => { disk := d, failure := some c }
  | .ok found =>
    { disk := d, output := [format.dump found.schema.encode],
      notes := found.warnings.map Generation.warningLine }

/-- Prints the service of a schema. -/
def runMap (schema : FilePath) (name : Option String) (format : DumpFormat) (d : Disk) : Run :=
  .printing d ((SchemaFile.service d schema name).map fun s => [format.dump s.encode])

/-- The issues of a schema file, or only the errors. -/
def issuesOf (schema : FilePath) (errorsOnly : Bool) (d : Disk) : Except Chain (List Issue) := do
  let found ← SchemaFile.extraction d schema
  let service ← Chain.ofResult (Service.ofSchema (Service.nameOf schema) found.schema)
  let issues := Lint.issues found.schema service
  pure (if errorsOnly then issues.filter (·.severity == .error) else issues)

/-- Checks a schema. -/
def runLint (schema : FilePath) (failOnError errorsOnly : Bool) (d : Disk) : Run :=
  match issuesOf schema errorsOnly d with
  | .error c => { disk := d, failure := some c }
  | .ok issues =>
    { disk := d, output := Lint.reportLines issues,
      failure := if failOnError && Lint.hasErrors issues then
        some (.ofText ("Lint found errors in " ++ schema.text)) else none }

/-- The lines that show where templates stand, up to the first that is not found. -/
def placeLines (e : Engine) (d : Disk) : List String → List String × Option Failure
  | [] => ([], none)
  | name :: rest =>
    match e.find d name with
    | .error f => ([], some f)
    | .ok path =>
      let (lines, failure) := placeLines e d rest
      (("   " ++ name ++ " → " ++ path.text) :: lines, failure)

/-- The lines that show how many of the listed templates could be loaded, and which could not. -/
def loadedLines (names : List String) (loaded : Nat) (cache : Template.Cache) : List String :=
  if loaded = names.length then ["✅ Loaded " ++ countText loaded ++ " template(s)"]
  else
    ("⚠️  Loaded " ++ countText loaded ++ " of " ++ countText names.length ++ " template(s)") ::
      (names.filter fun name => !cache.contains name).map ("   ✗ " ++ ·)

/-- Lists the templates of a directory and loads them. -/
def runTemplates (directory : FilePath) (framework : Option String) (d : Disk) : Run :=
  let e : Engine := ⟨directory, framework, .standard⟩
  match e.namesIn d "" with
  | .error f => { disk := d, failure := some (.ofFailure f) }
  | .ok names =>
    match placeLines e d names with
    | (lines, some f) => { disk := d, output := lines, failure := some (.ofFailure f) }
    | (lines, none) =>
      match (e.preload "").on ⟨d, .empty⟩ with
      | (.error f, w) => { disk := w.store, output := lines, failure := some (.ofFailure f) }
      | (.ok loaded, w) =>
        { disk := w.store, output := lines ++ loadedLines names loaded w.cache }

/-- Runs a command. -/
def Command.run (now : Instant) : Command → Disk → Run
  | generate r => runGenerate now r
  | extract schema format => runExtract schema format
  | map schema name format => runMap schema name format
  | lint schema failOnError errorsOnly => runLint schema failOnError errorsOnly
  | templates directory framework => runTemplates directory framework

end ServiceScaffold.CommandLine
