import ServiceScaffold.Keyed
import ServiceScaffold.Text.Blank
import ServiceScaffold.Number.Decimal
import ServiceScaffold.Schema.Basic
import ServiceScaffold.Service.Basic

/-!
# Lint

Problems of a schema and its service that would make the generated code misbehave or surprise.  An
issue is one of six findings (`Finding`); severity, texts and suggestion follow from it.  Only a
collision of routes is an error.
-/

namespace ServiceScaffold

/-- How much an issue matters. -/
inductive Severity where
  | error
  | warning
  | info
  deriving DecidableEq, Repr, Inhabited

/-- The name of a severity. -/
def Severity.text : Severity → String
  | .error => "error"
  | .warning => "warning"
  | .info => "info"

/-- What was found. -/
inductive Finding where
  /-- Several resources have one route. -/
  | routeCollision (route : String) (resources : List String)
  /-- A name has several roles. -/
  | multipleRoles (name : String) (roles : List Role)
  /-- A resource has no fields. -/
  | emptyResource (name : String)
  /-- The schema does not say which version of the protocol it describes. -/
  | missingVersion
  /-- An interface extends another one that is not declared. -/
  | unresolvedParent (interface parent : String)
  /-- The name of a resource ends in a noun whose plural is formed by another rule. -/
  | irregularPlural (resource noun route : String)
  deriving DecidableEq, Repr

/-- An issue as it is reported. -/
structure Issue where
  location : String
  severity : Severity
  kind : String
  message : String
  suggestion : Option String
  deriving DecidableEq, Repr, Inhabited

/-- `sep` between texts. -/
def joinTexts (sep : String) (texts : List String) : String := sep.intercalate texts

/-- The report of a finding. -/
def Finding.issue : Finding → Issue
  | .routeCollision route resources =>
    ⟨"route:/" ++ route, .error, "route_collision",
      "Resources " ++ joinTexts ", " resources ++ " all map to /" ++ route,
      some "Rename one of the resources"⟩
  | .multipleRoles name roles =>
    ⟨"declaration:" ++ name, .warning, "multiple_roles",
      "`" ++ name ++ "` is classified as " ++ joinTexts " and " (roles.map Role.tag),
      some "Keep one role tag or rename the declaration"⟩
  | .emptyResource name =>
    ⟨"resource:" ++ name, .warning, "resource_without_fields",
      "Resource `" ++ name ++ "` has no properties", none⟩
  | .missingVersion =>
    ⟨"schema", .warning, "missing_protocol_version",
      "No LATEST_PROTOCOL_VERSION constant; generated code reports version \"unknown\"",
      some "export const LATEST_PROTOCOL_VERSION = \"...\";"⟩
  | .unresolvedParent interface parent =>
    ⟨"interface:" ++ interface, .info, "unresolved_extends",
      "`" ++ interface ++ "` extends `" ++ parent ++
        "`, which is not declared; inherited fields are not generated", none⟩
  | .irregularPlural resource noun route =>
    ⟨"resource:" ++ resource, .info, "irregular_plural",
      "`" ++ noun ++ "` has an irregular plural; the route is /" ++ route, none⟩

/-- The lines that show one issue. -/
def Issue.lines (i : Issue) : List String :=
  ["   [" ++ i.kind ++ "] " ++ i.location, "      " ++ i.message] ++
    (i.suggestion.map fun s => "      💡 Suggestion: " ++ s).toList

namespace Lint

/-- Nouns whose plural is not formed by an ending. -/
def irregularNouns : List String :=
  ["Person", "Child", "Man", "Woman", "Mouse", "Goose", "Foot", "Tooth", "Datum", "Criterion",
    "Analysis", "Medium", "Leaf", "Life", "Knife", "Cactus", "Sheep", "Fish", "Deer", "Series",
    "Species"]

/-- The names of the resources of each route, sorted by route. -/
def byRoute (resources : List Resource) : List (String × List String) :=
  resources.foldl
    (fun groups r =>
      let names := (Keyed.lookup r.pluralPath groups).getD []
      Keyed.insertSorted (r.pluralPath, names ++ [r.name]) groups)
    []

/-- Every route that several resources share. -/
def routeCollisions (service : Service) : List Finding :=
  ((byRoute service.resources).filter fun (_, names) => 1 < names.length).map
    fun (route, names) => .routeCollision route names

/-- The elements of a list, each where it first occurs. -/
def firstOccurrences (names : List String) : List String :=
  names.foldl (fun seen name => if seen.contains name then seen else seen ++ [name]) []

/-- Every name with several roles. -/
def multipleRoles (roles : RoleLists) : List Finding :=
  (firstOccurrences roles.allNames).filterMap fun name =>
    let own := roles.rolesOf name
    if 1 < own.length then some (.multipleRoles name own) else none

/-- Every resource without fields. -/
def emptyResources (service : Service) : List Finding :=
  (service.resources.filter (·.fields.isEmpty)).map fun r => .emptyResource r.name

/-- The version is missing. -/
def missingVersion (schema : Schema) : List Finding :=
  if schema.version = Schema.unknownVersion then [.missingVersion] else []

/-- The name of a parent without its type arguments. -/
def parentName (parent : String) : String :=
  String.ofList (Text.trim (parent.toList.takeWhile (· != '<')))

/-- Every parent of an interface that is not declared. -/
def unresolvedParents (schema : Schema) : List Finding :=
  (schema.interfaces.map Prod.snd).flatMap fun i =>
    (i.parents.filter fun parent => !schema.isDeclared (parentName parent)).map
      fun parent => .unresolvedParent i.name parent

/-- Every resource whose name ends in an irregular noun. -/
def irregularPlurals (service : Service) : List Finding :=
  service.resources.filterMap fun r =>
    (irregularNouns.find? fun noun => noun.toList.isSuffixOf r.name.toList).map
      fun noun => .irregularPlural r.name noun r.pluralPath

/-- All findings, check after check. -/
def findings (schema : Schema) (service : Service) : List Finding :=
  routeCollisions service ++ multipleRoles schema.roles ++ emptyResources service ++
    missingVersion schema ++ unresolvedParents schema ++ irregularPlurals service

/-- All issues, check after check. -/
def issues (schema : Schema) (service : Service) : List Issue :=
  (findings schema service).map Finding.issue

/-- One of the issues is an error. -/
def hasErrors (issues : List Issue) : Bool := issues.any (·.severity == .error)

/-- The lines that show the issues of one severity below a header, none if there are none. -/
def groupLines (header : String) (group : List Issue) : List String :=
  if group.isEmpty then [] else header :: group.flatMap Issue.lines ++ [""]

/-- The decimal text of a count. -/
def countText (n : Nat) : String := String.ofList (Number.digitsOf n)

/-- The lines that show all issues. -/
def reportLines (issues : List Issue) : List String :=
  if issues.isEmpty then ["✅ No lint issues found!"]
  else
    let having (severity : Severity) := issues.filter (·.severity == severity)
    let errors := having .error
    let warnings := having .warning
    let infos := having .info
    ["", "📋 Lint Results:",
      "   " ++ countText errors.length ++ " error(s), " ++ countText warnings.length ++
        " warning(s), " ++ countText infos.length ++ " info(s)", ""] ++
      groupLines "❌ Errors (must fix):" errors ++
      groupLines "⚠️  Warnings (should fix):" warnings ++
      groupLines "ℹ️  Info:" infos

end Lint

end ServiceScaffold
