import ServiceScaffold.CommandLine.Run
import ServiceScaffold.Log.Settings

/-!
# The program

The whole program as a function of its environment, its arguments, the moment and the disk
(`finish`).  It ends with the status 0 on success and for help, 1 on failure, and 2 if the arguments
are no command.
-/

namespace ServiceScaffold.CommandLine

open Text

/-! ### Failures -/

/-- A text whose first line starts with `first` and whose other lines start with `other`. -/
def indented (first other : List Char) (text : String) : String :=
  String.ofList (first ++ joinWith ('\n' :: other) (splitOn (· == '\n') text.toList))

/-- The number of a cause, aligned to the right. -/
def causeNumber (n : Nat) : List Char :=
  let digits := Number.digitsOf n
  List.replicate (5 - digits.length) ' ' ++ digits ++ [':', ' ']

/-- The lines that show causes; several ones are numbered. -/
def causeLines (causes : List String) : List String :=
  match causes with
  | [] => []
  | [cause] =>
    let margin := List.replicate 4 ' '
    ["", "Caused by:", indented margin margin cause]
  | _ =>
    "" :: "Caused by:" :: causes.mapIdx fun n cause =>
      indented (causeNumber n) (List.replicate 7 ' ') cause

/-- The lines that show a failure and its causes. -/
def failureLines (c : Chain) : List String :=
  ("Error: " ++ (c.texts.head?.getD "")) :: causeLines c.texts.tail

/-! ### Help -/

/-- What is said of arguments that are no command. -/
def UsageProblem.text : UsageProblem → String
  | noCommand => "no command is given"
  | unknownCommand => "there is no such command"
  | unknownArgument => "an argument is not expected"
  | invalidValue => "the value of an option is missing or invalid"
  | needlessValue => "an option takes no value"
  | repeatedOption => "an option is given twice"
  | missingOption => "a required option is not given"
  | help => ""

/-- An option in the line of its command. -/
def OptionRule.usage (rule : OptionRule) : String :=
  let name := (rule.short.map fun c => String.ofList ['-', c, '|']).getD "" ++ "--" ++ rule.long
  let shown := match rule.value with
    | .nothing => name
    | .anyText => name ++ " <TEXT>"
    | .path => name ++ " <PATH>"
    | .oneOf names => name ++ " <" ++ "|".intercalate names ++ ">"
  if rule.required then shown else "[" ++ shown ++ "]"

/-- The lines that show how the program is used. -/
def usageLines : List String :=
  "Usage: schemaforge-gen <COMMAND> [OPTIONS]" ::
    commandRules.flatMap fun rule =>
      ["", "  " ++ rule.name ++ ": " ++ rule.about,
        "    " ++ " ".intercalate (rule.options.map OptionRule.usage)]

/-! ### The whole program -/

/-- How the program ended. -/
structure Finish where
  disk : Disk
  status : Nat
  /-- The lines on the standard output. -/
  output : List String
  /-- The lines on the error output. -/
  errors : List String

/-- The end of a program whose arguments are no command. -/
def finishUsage (problem : UsageProblem) (warnings : List String) (d : Disk) : Finish :=
  if problem = .help then ⟨d, 0, usageLines, warnings⟩
  else ⟨d, 2, [], warnings ++ ["error: " ++ problem.text, ""] ++ usageLines⟩

/-- The end of a program after its command. -/
def finishRun (warnings : List String) (r : Run) : Finish :=
  match r.failure with
  | none => ⟨r.disk, 0, r.output, warnings ++ r.notes⟩
  | some c => ⟨r.disk, 1, r.output, warnings ++ r.notes ++ failureLines c⟩

/-- The warnings about the log settings of an environment. -/
def logWarnings (valueOf? : String → Option String) : List String :=
  (Log.Settings.ofEnvironment valueOf?).filter.2.map Log.Settings.invalidWarning

/-- Runs the program. -/
def finish (now : Instant) (valueOf? : String → Option String) (arguments : List String)
    (d : Disk) : Finish :=
  let warnings := logWarnings valueOf?
  match Command.ofArguments arguments with
  | .error problem => finishUsage problem warnings d
  | .ok command => finishRun warnings (command.run now d)

end ServiceScaffold.CommandLine
