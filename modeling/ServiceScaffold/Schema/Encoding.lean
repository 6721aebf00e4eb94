import ServiceScaffold.Json.Parser
import ServiceScaffold.Schema.Basic
import ServiceScaffold.Schema.Record

/-!
# Schemas as JSON

The written form of a schema (`Schema.encode`) and its reading from a value (`Schema.decode?`) and
from a text (`Schema.ofText?`).  An absent description and an empty list of parents are left out.
-/

namespace ServiceScaffold

/-- A field with a description, none if it is absent. -/
def descriptionField (description : Option String) : List (String × Json) :=
  (description.map fun d => ("description", Json.str d)).toList

/-- The written form of a property. -/
def Property.encode (p : Property) : Json :=
  .obj ([("name", .str p.name), ("type", .str p.type), ("optional", .bool p.isOptional)] ++
    descriptionField p.description)

/-- The written form of an interface. -/
def Interface.encode (i : Interface) : Json :=
  .obj ([("name", .str i.name)] ++ descriptionField i.description ++
    (if i.parents.isEmpty then [] else [("extends", Json.ofStrings i.parents)]) ++
    [("properties", .arr (i.properties.map Property.encode))])

/-- The written form of a type alias. -/
def TypeAlias.encode (t : TypeAlias) : Json :=
  .obj ([("name", .str t.name), ("type", .str t.type)] ++ descriptionField t.description)

/-- The written form of a constant's value. -/
def ConstantValue.encode : ConstantValue → Json
  | .bool b => .bool b
  | .number x => .float x
  | .text s => .str s

/-- The written form of the role lists. -/
def RoleLists.encode (t : RoleLists) : Json :=
  .obj [("resources", Json.ofStrings t.resources), ("tools", Json.ofStrings t.tools),
    ("prompts", Json.ofStrings t.prompts), ("capabilities", Json.ofStrings t.capabilities)]

/-- A count as a value. -/
def countJson (n : Nat) : Json := .int (Int.ofNat n)

/-- The written form of the counts. -/
def Summary.encode (s : Summary) : Json :=
  .obj [("interfaces", countJson s.interfaces), ("types", countJson s.types),
    ("constants", countJson s.constants), ("resources", countJson s.resources),
    ("tools", countJson s.tools), ("prompts", countJson s.prompts),
    ("capabilities", countJson s.capabilities)]

/-- Entries with their values written. -/
def encodeEntries {α : Type} (encode : α → Json) (entries : List (String × α)) : Json :=
  .obj (entries.map fun (key, a) => (key, encode a))

/-- The written form of a schema. -/
def Schema.encode (s : Schema) : Json :=
  .obj [("version", .str s.version), ("interfaces", encodeEntries Interface.encode s.interfaces),
    ("types", encodeEntries TypeAlias.encode s.types),
    ("constants", encodeEntries ConstantValue.encode s.constants),
    ("component_tags", s.roles.encode), ("summary", s.summary.encode)]

open Record

/-- A text value. -/
def decodeText? (v : Json) : Option String := Record.text? (some v)

/-- The fields of a property as they are written. -/
def Property.layout : Record.Layout :=
  [("name", .whole), ("type", .whole), ("optional", .whole), ("description", .whole)]

/-- Reads a property. -/
def Property.decode? (v : Json) : Option Property := do
  match ← read? layout v with
  | [name, type, isOptional, description] =>
    pure ⟨← Record.text? name, ← Record.text? type, ← Record.bool? isOptional,
      ← optionalText? description⟩
  | _ => none

/-- The fields of an interface as they are written. -/
def Interface.layout : Record.Layout :=
  [("name", .whole), ("description", .whole), ("extends", .whole),
    ("properties", .list (.record Property.layout))]

/-- Reads an interface. -/
def Interface.decode? (v : Json) : Option Interface := do
  match ← read? layout v with
  | [name, description, parents, properties] =>
    pure ⟨← Record.text? name, ← optionalText? description, ← optionalList? decodeText? parents,
      ← list? Property.decode? properties⟩
  | _ => none

/-- The fields of a type alias as they are written. -/
def TypeAlias.layout : Record.Layout :=
  [("name", .whole), ("type", .whole), ("description", .whole)]

/-- Reads a type alias. -/
def TypeAlias.decode? (v : Json) : Option TypeAlias := do
  match ← read? layout v with
  | [name, type, description] =>
    pure ⟨← Record.text? name, ← Record.text? type, ← optionalText? description⟩
  | _ => none

/-- Reads the value of a constant. -/
def ConstantValue.decode? : Json → Option ConstantValue
  | .bool b => some (.bool b)
  | .int n => some (.number (Binary64.ofInt n))
  | .float x => some (.number x)
  | .str s => some (.text s)
  | _ => none

/-- The fields of the role lists as they are written. -/
def RoleLists.layout : Record.Layout :=
  [("resources", .whole), ("tools", .whole), ("prompts", .whole), ("capabilities", .whole)]

/-- Reads the role lists. -/
def RoleLists.decode? (v : Json) : Option RoleLists := do
  match ← read? layout v with
  | [resources, tools, prompts, capabilities] =>
    pure ⟨← list? decodeText? resources, ← list? decodeText? tools, ← list? decodeText? prompts,
      ← list? decodeText? capabilities⟩
  | _ => none

/-- The fields of the counts as they are written. -/
def Summary.layout : Record.Layout :=
  [("interfaces", .whole), ("types", .whole), ("constants", .whole), ("resources", .whole),
    ("tools", .whole), ("prompts", .whole), ("capabilities", .whole)]

/-- Reads the counts. -/
def Summary.decode? (v : Json) : Option Summary := do
  match ← read? layout v with
  | [interfaces, types, constants, resources, tools, prompts, capabilities] =>
    pure ⟨← count? interfaces, ← count? types, ← count? constants, ← count? resources,
      ← count? tools, ← count? prompts, ← count? capabilities⟩
  | _ => none

/-- The fields of a schema as they are written. -/
def Schema.layout : Record.Layout :=
  [("version", .whole), ("interfaces", .map (.record Interface.layout)),
    ("types", .map (.record TypeAlias.layout)), ("constants", .whole),
    ("component_tags", .record RoleLists.layout), ("summary", .record Summary.layout)]

/-- Reads a schema. -/
def Schema.decode? (v : Json) : Option Schema := do
  match ← read? layout v with
  | [version, interfaces, types, constants, roles, summary] =>
    pure ⟨← Record.text? version, ← map? Interface.decode? interfaces,
      ← map? TypeAlias.decode? types, ← map? ConstantValue.decode? constants,
      ← roles.bind RoleLists.decode?, ← summary.bind Summary.decode?⟩
  | _ => none

/-- Reads a schema from a text.  Fields of other names need not be readable. -/
def Schema.ofText? (text : String) : Option Schema :=
  (Json.parseAs? (.record Schema.layout) text).bind Schema.decode?

end ServiceScaffold
