import ServiceScaffold.Schema.Encoding
import ServiceScaffold.Service.Basic

/-!
# Services as JSON

The written form of a service (`Service.encode`) and its reading from a value (`Service.decode?`)
and from a text (`Service.ofText?`).  The alias of a type that is none is left out.
-/

namespace ServiceScaffold

/-- The written form of a field. -/
def Field.encode (f : Field) : Json :=
  .obj [("name", .str f.name), ("mapped_type", .str f.type), ("required", .bool f.required),
    ("repeated", .bool f.repeated), ("description", .str f.description)]

/-- The written form of an operation. -/
def Operation.encode (o : Operation) : Json :=
  .obj [("name", .str o.name), ("kind", .str o.kind.text), ("method", .str o.method.text),
    ("route", .str o.route), ("input_type", .str o.inputType), ("output_type", .str o.outputType),
    ("description", .str o.description)]

/-- The written form of a resource. -/
def Resource.encode (r : Resource) : Json :=
  .obj [("name", .str r.name), ("description", .str r.description),
    ("plural_path", .str r.pluralPath), ("fields", .arr (r.fields.map Field.encode)),
    ("operations", .arr (r.operations.map Operation.encode))]

/-- The written form of a declared type. -/
def DeclaredType.encode (t : DeclaredType) : Json :=
  .obj ([("name", .str t.name), ("description", .str t.description),
    ("fields", .arr (t.fields.map Field.encode))] ++
    (t.aliasOf.map fun a => ("alias_of", Json.str a)).toList ++
    [("is_resource", .bool t.isResource)])

/-- The written form of a service. -/
def Service.encode (s : Service) : Json :=
  .obj [("name", .str s.name), ("protocol_version", .str s.protocolVersion),
    ("resources", .arr (s.resources.map Resource.encode)),
    ("types", .arr (s.types.map DeclaredType.encode))]

open Record

/-- The fields of a field as they are written. -/
def Field.layout : Record.Layout :=
  [("name", .whole), ("mapped_type", .whole), ("required", .whole), ("repeated", .whole),
    ("description", .whole)]

/-- Reads a field. -/
def Field.decode? (v : Json) : Option Field := do
  match ← read? layout v with
  | [name, type, required, repeated, description] =>
    pure ⟨← Record.text? name, ← Record.text? type, ← Record.bool? required,
      ← Record.bool? repeated, ← Record.text? description⟩
  | _ => none

/-- The fields of an operation as they are written. -/
def Operation.layout : Record.Layout :=
  [("name", .whole), ("kind", .whole), ("method", .whole), ("route", .whole),
    ("input_type", .whole), ("output_type", .whole), ("description", .whole)]

/-- Reads an operation. -/
def Operation.decode? (v : Json) : Option Operation := do
  match ← read? layout v with
  | [name, kind, method, route, input, output, description] =>
    pure ⟨← Record.text? name, ← OperationKind.ofText? (← caseName? kind),
      ← HttpMethod.ofText? (← caseName? method), ← Record.text? route, ← Record.text? input,
      ← Record.text? output, ← Record.text? description⟩
  | _ => none

/-- The fields of a resource as they are written. -/
def Resource.layout : Record.Layout :=
  [("name", .whole), ("description", .whole), ("plural_path", .whole),
    ("fields", .list (.record Field.layout)), ("operations", .list (.record Operation.layout))]

/-- Reads a resource. -/
def Resource.decode? (v : Json) : Option Resource := do
  match ← read? layout v with
  | [name, description, path, fields, operations] =>
    pure ⟨← Record.text? name, ← Record.text? description, ← Record.text? path,
      ← list? Field.decode? fields, ← list? Operation.decode? operations⟩
  | _ => none

/-- The fields of a declared type as they are written. -/
def DeclaredType.layout : Record.Layout :=
  [("name", .whole), ("description", .whole), ("fields", .list (.record Field.layout)),
    ("alias_of", .whole), ("is_resource", .whole)]

/-- Reads a declared type. -/
def DeclaredType.decode? (v : Json) : Option DeclaredType := do
  match ← read? layout v with
  | [name, description, fields, aliasOf, isResource] =>
    pure ⟨← Record.text? name, ← Record.text? description, ← list? Field.decode? fields,
      ← optionalText? aliasOf, ← Record.bool? isResource⟩
  | _ => none

/-- The fields of a service as they are written. -/
def Service.layout : Record.Layout :=
  [("name", .whole), ("protocol_version", .whole), ("resources", .list (.record Resource.layout)),
    ("types", .list (.record DeclaredType.layout))]

/-- Reads a service. -/
def Service.decode? (v : Json) : Option Service := do
  match ← read? layout v with
  | [name, version, resources, types] =>
    pure ⟨← Record.text? name, ← Record.text? version, ← list? Resource.decode? resources,
      ← list? DeclaredType.decode? types⟩
  | _ => none

/-- Reads a service from a text.  Fields of other names need not be readable. -/
def Service.ofText? (text : String) : Option Service :=
  (Json.parseAs? (.record Service.layout) text).bind Service.decode?

end ServiceScaffold
