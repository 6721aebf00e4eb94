import ServiceScaffold.CommandLine.Arguments
import ServiceScaffold.Dump
import ServiceScaffold.Project.Generation

/-!
# Commands

The five commands.  Each has a rule with its name, its options, and what the values of these mean
(`commandRules`); `Command.ofArguments` reads a command line.
-/

namespace ServiceScaffold.CommandLine

/-- What the program is told to do. -/
inductive Command where
  /-- Generate a project. -/
  | generate (request : Project.Request)
  /-- Print the schema of a file. -/
  | extract (schema : FilePath) (format : DumpFormat)
  /-- Print the service of a schema. -/
  | map (schema : FilePath) (name : Option String) (format : DumpFormat)
  /-- Check a schema. -/
  | lint (schema : FilePath) (failOnError errorsOnly : Bool)
  /-- List the templates of a directory and load them. -/
  | templates (directory : FilePath) (framework : Option String)
  deriving Inhabited

/-! ### Values -/

namespace Values

/-- The value of an option. -/
def text? (name : String) (v : Values) : Option String := Keyed.lookup name v

/-- The path that an option gives. -/
def path? (name : String) (v : Values) : Option FilePath := (text? name v).map .ofString

/-- The path that an option gives, or a default. -/
def pathOr (default name : String) (v : Values) : FilePath :=
  .ofString ((text? name v).getD default)

/-- The option is given. -/
def has (name : String) (v : Values) : Bool := (text? name v).isSome

/-- The format that is asked for, or the first one. -/
def format (v : Values) : DumpFormat := ((text? "format" v).bind DumpFormat.ofText?).getD .json

end Values

/-! ### Rules -/

/-- The option that names the schema file. -/
def schemaRule : OptionRule :=
  { long := "schema", short := some 's', value := .path, required := true }

/-- The option that names the template directory. -/
def templatesRule : OptionRule := { long := "templates", short := some 't', value := .path }

/-- The option that names the directory of a framework. -/
def frameworkRule : OptionRule := { long := "framework" }

/-- The option that names the service. -/
def nameRule : OptionRule := { long := "name" }

/-- The option that names the format of a dump. -/
def formatRule : OptionRule :=
  { long := "format", value := .oneOf [DumpFormat.json.text, DumpFormat.yaml.text] }

/-- A switch without a letter. -/
def switchRule (name : String) : OptionRule := { long := name, value := .nothing }

/-- A command: its name, its options and what their values mean. -/
structure CommandRule where
  name : String
  /-- What the command does. -/
  about : String
  options : List OptionRule
  command : Values → Command
  deriving Inhabited

/-- All commands. -/
def commandRules : List CommandRule := [
  { name := "generate"
    about := "Generate a server project from a schema"
    options := [schemaRule, { long := "output", short := some 'o', value := .path }, templatesRule,
      frameworkRule, nameRule, { long := "target-version" }, { long := "config", value := .path },
      { long := "force", short := some 'f', value := .nothing }, switchRule "dry-run"]
    command := fun v => .generate {
      schema := Values.pathOr "" "schema" v
      output := Values.pathOr "." "output" v
      templates := Values.path? "templates" v
      framework := Values.text? "framework" v
      serviceName := Values.text? "name" v
      targetVersion := Values.text? "target-version" v
      settingsFile := Values.path? "config" v
      force := Values.has "force" v
      dryRun := Values.has "dry-run" v } },
  { name := "extract"
    about := "Print the structural model extracted from a schema"
    options := [schemaRule, formatRule]
    command := fun v => .extract (Values.pathOr "" "schema" v) (Values.format v) },
  { name := "map"
    about := "Print the service model mapped from a schema"
    options := [schemaRule, nameRule, formatRule]
    command := fun v =>
      .map (Values.pathOr "" "schema" v) (Values.text? "name" v) (Values.format v) },
  { name := "lint"
    about := "Lint a schema"
    options := [schemaRule, switchRule "fail-on-error", switchRule "errors-only"]
    command := fun v =>
      .lint (Values.pathOr "" "schema" v) (Values.has "fail-on-error" v)
        (Values.has "errors-only" v) },
  { name := "templates"
    about := "List the templates in a template directory and check that they load"
    options := [templatesRule, frameworkRule]
    command := fun v =>
      .templates (Values.pathOr "templates" "templates" v) (Values.text? "framework" v) }]

/-- The word that asks for help in the place of a command. -/
def helpWord : String := "help"

/-- The word stands where a command may stand. -/
def isCommandWord (word : String) : Bool :=
  word == helpWord || commandRules.any (·.name == word)

/-- What words after the word for help amount to: they name at most one command. -/
def helpProblem : List String → UsageProblem
  | [] => .help
  | [word] => if isCommandWord word then .help else .unknownCommand
  | _ => .unknownCommand

/-- What arguments amount to that start with no command. -/
def noCommandProblem : List String → UsageProblem
  | [] => .noCommand
  | argument :: rest =>
    match ArgumentForm.of argument, rest with
    | .plain, _ => .unknownCommand
    | .endOfOptions, [] => .noCommand
    | .endOfOptions, word :: _ =>
      if isCommandWord word then .unknownArgument else .unknownCommand
    | .long name attached, _ =>
      if name = helpRule.long.toList then if attached.isSome then .needlessValue else .help
      else .unknownArgument
    | .short letters, _ =>
      if letters.head? = helpRule.short then .help else .unknownArgument

/-- Reads a command line. -/
def Command.ofArguments (arguments : List String) : Except UsageProblem Command :=
  match arguments with
  | [] => .error .noCommand
  | word :: rest =>
    match commandRules.find? (·.name == word) with
    | some rule => (readOptions rule.options rest).map rule.command
    | none => .error (if word = helpWord then helpProblem rest else noCommandProblem arguments)

end ServiceScaffold.CommandLine
