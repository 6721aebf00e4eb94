import ServiceScaffold.Log.Filter

/-!
# Log settings

What the environment says about logging: the level, the format, further directives and whether
places in the code are shown.
-/

namespace ServiceScaffold.Log

open Text

/-- How records are written. -/
inductive Format where
  | json
  | pretty
  deriving DecidableEq, Repr, Inhabited

/-- The log settings. -/
structure Settings where
  levelName : String := "info"
  format : Format := .pretty
  targets : Option String := none
  showsPlaces : Bool := false
  deriving DecidableEq, Repr

/-- The variable that holds the level. -/
def levelVariable : String := "SCHEMAFORGE_LOG_LEVEL"

/-- The variable that holds the format. -/
def formatVariable : String := "SCHEMAFORGE_LOG_FORMAT"

/-- The variable that holds further directives. -/
def targetsVariable : String := "SCHEMAFORGE_LOG_TARGET_FILTER"

/-- The variable that says whether places in the code are shown. -/
def placesVariable : String := "SCHEMAFORGE_LOG_INCLUDE_LOCATION"

/-- The format that a text names, in any case; any other text means the pretty one. -/
def Format.ofText (text : String) : Format :=
  if toLower text.toList = "json".toList then .json else .pretty

namespace Settings

/-- The settings that an environment holds. -/
def ofEnvironment (valueOf? : String → Option String) : Settings where
  levelName := (valueOf? levelVariable).getD "info"
  format := ((valueOf? formatVariable).map Format.ofText).getD .pretty
  targets := (valueOf? targetsVariable).filter fun s => !(trim s.toList).isEmpty
  showsPlaces := valueOf? placesVariable == some "true"

/-- The level; a text that names none, or turns logging off, means the informative one. -/
def level (s : Settings) : Level :=
  let name := toLower s.levelName.toList
  ([Level.trace, .debug, .info, .warn, .error].find? (·.text.toList == name)).getD .info

/-- The further directives as they are written, without blanks around them. -/
def directiveTexts (s : Settings) : List (List Char) :=
  match s.targets with
  | some targets => ((splitOn (· == ',') targets.toList).map trim).filter (!·.isEmpty)
  | none => []

/-- The filter, and the texts that are no directives. -/
def filter (s : Settings) : Filter × List (List Char) :=
  s.directiveTexts.foldl
    (fun (f, invalid) text =>
      match Directive.parse? text with
      | some d => (f.add d, invalid)
      | none => (f, invalid ++ [text]))
    (Filter.ofLevel s.level, [])

/-- The warning about a text that is no directive. -/
def invalidWarning (text : List Char) : String :=
  "Warning: Invalid log filter directive: " ++ String.ofList text

end Settings

end ServiceScaffold.Log
