import ServiceScaffold.Json.Parser
import ServiceScaffold.Json.Printer
import ServiceScaffold.Schema.Encoding
import ServiceScaffold.Service.Encoding
import ServiceScaffold.Yaml.Printer

/-!
# Dumps

Schemas and services as texts, in one of two formats.
-/

namespace ServiceScaffold

/-- The formats of a dump. -/
inductive DumpFormat where
  | json
  | yaml
  deriving DecidableEq, Repr, Inhabited

namespace DumpFormat

/-- The name of a format. -/
def text : DumpFormat → String
  | .json => "json"
  | .yaml => "yaml"

/-- The format with a given name. -/
def ofText? (name : String) : Option DumpFormat := [json, yaml].find? (·.text == name)

/-- A value in a format. -/
def dump : DumpFormat → Json → String
  | .json, v => v.pretty
  | .yaml, v => Yaml.document v

end DumpFormat

end ServiceScaffold
