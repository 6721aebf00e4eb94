import ServiceScaffold.Project.Generation
import ServiceScaffold.Proofs.Syntax.Layout
import ServiceScaffold.Proofs.Template.Patterns

/-!
# The type definitions of a project

A standard project has one file that declares all types of its service, and the messages of the
operations of its resources.

* `definitionsTemplate` : the template of this file;
* `Service.definitionLines` : the declarations in the file;
* `text?_typePattern`, `text?_messages` : what the template makes of a type and of a resource;
* `render_definitionsTemplate` : **the template becomes these declarations, line by line**.
-/

namespace ServiceScaffold

open Syntax

/-! ### The template -/

namespace Project

/-- The lines of the template of type definitions. -/
def definitionsTemplateLines : List String := [
  "// Generated by schemaforge \x7b\x7b meta.generator_version \x7d\x7d from " ++
    "\x7b\x7b meta.schema_path \x7d\x7d.",
  "// Protocol version \x7b\x7b service.protocol_version \x7d\x7d. Do not edit by hand.",
  "",
  "\x7b% for t in service.types %\x7d",
  "\x7b% if t.description %\x7d",
  "/** \x7b\x7b t.description \x7d\x7d */",
  "\x7b% endif %\x7d",
  "\x7b% if t.alias_of %\x7d",
  "export type \x7b\x7b t.name \x7d\x7d = \x7b\x7b t.alias_of \x7d\x7d;",
  "\x7b% else %\x7d",
  "export interface \x7b\x7b t.name \x7d\x7d \x7b",
  "\x7b% for f in t.fields %\x7d",
  "\x7b% if f.description %\x7d",
  "  /** \x7b\x7b f.description \x7d\x7d */",
  "\x7b% endif %\x7d",
  "  \x7b\x7b f.name \x7d\x7d\x7b% if not f.required %\x7d?\x7b% endif %\x7d: " ++
    "\x7b\x7b f.mapped_type \x7d\x7d;",
  "\x7b% endfor %\x7d",
  "\x7d",
  "\x7b% endif %\x7d",
  "",
  "\x7b% endfor %\x7d",
  "\x7b% for r in service.resources %\x7d",
  "// \x7b\x7b r.name \x7d\x7d operations",
  "",
  "export interface Get\x7b\x7b r.name \x7d\x7dRequest \x7b",
  "  id: string;",
  "\x7d",
  "",
  "export interface List\x7b\x7b r.name \x7d\x7dRequest \x7b",
  "  cursor?: string;",
  "  limit?: number;",
  "\x7d",
  "",
  "export interface List\x7b\x7b r.name \x7d\x7dResult \x7b",
  "  items: \x7b\x7b r.name \x7d\x7d[];",
  "  nextCursor?: string;",
  "\x7d",
  "",
  "export interface Create\x7b\x7b r.name \x7d\x7dRequest \x7b",
  "  data: \x7b\x7b r.name \x7d\x7d;",
  "\x7d",
  "",
  "export interface Update\x7b\x7b r.name \x7d\x7dRequest \x7b",
  "  id: string;",
  "  data: Partial<\x7b\x7b r.name \x7d\x7d>;",
  "\x7d",
  "",
  "export interface Delete\x7b\x7b r.name \x7d\x7dRequest \x7b",
  "  id: string;",
  "\x7d",
  "",
  "export interface Delete\x7b\x7b r.name \x7d\x7dResult \x7b",
  "  deleted: boolean;",
  "\x7d",
  "",
  "\x7b% endfor %\x7d"]

/-- The template of type definitions. -/
def definitionsTemplate : String :=
  String.ofList (definitionsTemplateLines.flatMap fun line => line.toList ++ ['\n'])

open Template (Pattern Place Value)

/-- The member of a name. -/
def field (x name : String) : Place := .member (.name x) name

/-- A description in a comment. -/
def remarkPattern (x indent : String) (rest : Pattern) : Pattern :=
  .branch false (field x "description")
    (.text (indent ++ "/** ") (.value (field x "description") (.text " */\n" .done))) .done rest

/-- What the template makes of a field. -/
def fieldPattern : Pattern :=
  remarkPattern "f" "  " <| .text "  " <| .value (field "f" "name") <|
    .branch true (field "f" "required") (.text "?" .done) .done <| .text ": " <|
    .value (field "f" "mapped_type") <| .text ";\n" .done

/-- What the template makes of a type. -/
def typePattern : Pattern :=
  remarkPattern "t" "" <| .branch false (field "t" "alias_of")
    (.text "export type " <| .value (field "t" "name") <| .text " = " <|
      .value (field "t" "alias_of") <| .text ";\n" .done)
    (.text "export interface " <| .value (field "t" "name") <| .text " \x7b\n" <|
      .each "f" (field "t" "fields") fieldPattern <| .text "\x7d\n" .done) <|
    .text "\n" .done

/-- Texts with the name of a resource between them. -/
def namedPattern : List String → Pattern
  | [] => .done
  | [last] => .text last .done
  | first :: rest => .text first (.value (field "r" "name") (namedPattern rest))

/-- What stands around the names of a resource in the messages of its operations. -/
def messageTexts : List String := [
  "// ",
  " operations\n\nexport interface Get",
  "Request \x7b\n  id: string;\n\x7d\n\nexport interface List",
  "Request \x7b\n  cursor?: string;\n  limit?: number;\n\x7d\n\nexport interface List",
  "Result \x7b\n  items: ",
  "[];\n  nextCursor?: string;\n\x7d\n\nexport interface Create",
  "Request \x7b\n  data: ",
  ";\n\x7d\n\nexport interface Update",
  "Request \x7b\n  id: string;\n  data: Partial<",
  ">;\n\x7d\n\nexport interface Delete",
  "Request \x7b\n  id: string;\n\x7d\n\nexport interface Delete",
  "Result \x7b\n  deleted: boolean;\n\x7d\n\n"]

/-- What the template makes of a service. -/
def definitionsPattern : Pattern :=
  .text "// Generated by schemaforge " <| .value (field "meta" "generator_version") <|
    .text " from " <| .value (field "meta" "schema_path") <| .text ".\n// Protocol version " <|
    .value (field "service" "protocol_version") <| .text ". Do not edit by hand.\n\n" <|
    .each "t" (field "service" "types") typePattern <|
    .each "r" (field "service" "resources") (namedPattern messageTexts) .done

theorem isScript_definitionsPattern :
    definitionsPattern.isScript (Template.Script.parse definitionsTemplate) = true := by
  rw [definitionsTemplate, Template.Script.parse_ofList]
  -- the letters of the lines are written out first, so that evaluation does not go through bytes
  simp only [definitionsTemplateLines, List.flatMap_cons, List.flatMap_nil, String.reduceToList]
  decide +kernel

end Project

/-! ### The declarations -/

/-- A description in a comment. -/
def remark (indent description : String) : List Char :=
  if description.isEmpty then []
  else indent.toList ++ ("/** ".toList ++ description.toList ++ " */".toList ++ ['\n'])

/-- The line of a field. -/
def Field.line (f : Field) : MemberLine :=
  ⟨remark "  " f.description ++ "  ".toList, ⟨f.name.toList, !f.required, f.type.toList⟩⟩

theorem Field.line_property (f : Field) :
    f.line.property = ⟨f.name.toList, !f.required, f.type.toList⟩ := rfl

/-- The lines of a type. -/
def DeclaredType.lines (t : DeclaredType) : DeclarationLines :=
  let aliasOf := t.aliasOf.getD ""
  if aliasOf.isEmpty then
    .interface (remark "" t.description) t.name.toList (t.fields.map Field.line)
  else .typeAlias (remark "" t.description) t.name.toList aliasOf.toList

/-- The line of a property of a message. -/
def messageLine (name : String) (isOptional : Bool) (type : List Char) : MemberLine :=
  ⟨"  ".toList, ⟨name.toList, isOptional, type⟩⟩

/-- The name of a message of an operation. -/
def messageName (verb resource role : String) : List Char :=
  verb.toList ++ (resource.toList ++ role.toList)

/-- The messages of the operations of a resource: their names and properties. -/
def Resource.messages (r : Resource) : List (List Char × List MemberLine) :=
  let x := r.name.toList
  [ (messageName "Get" r.name "Request", [messageLine "id" false "string".toList]),
    (messageName "List" r.name "Request",
      [messageLine "cursor" true "string".toList, messageLine "limit" true "number".toList]),
    (messageName "List" r.name "Result",
      [messageLine "items" false (x ++ "[]".toList),
        messageLine "nextCursor" true "string".toList]),
    (messageName "Create" r.name "Request", [messageLine "data" false x]),
    (messageName "Update" r.name "Request",
      [messageLine "id" false "string".toList,
        messageLine "data" false ("Partial<".toList ++ x ++ ['>'])]),
    (messageName "Delete" r.name "Request", [messageLine "id" false "string".toList]),
    (messageName "Delete" r.name "Result", [messageLine "deleted" false "boolean".toList]) ]

/-- The comment before the messages of a resource. -/
def Resource.messagesHeading (r : Resource) : List Char :=
  "//".toList ++ (' ' :: (r.name.toList ++ " operations".toList)) ++ ['\n'] ++ ['\n']

/-- The lines of the messages of a resource. -/
def Resource.messageLines (r : Resource) : List DeclarationLines :=
  match r.messages with
  | [] => []
  | first :: rest =>
    .interface r.messagesHeading first.1 first.2 :: rest.map fun m => .interface [] m.1 m.2

/-- The names of the messages of the resources. -/
def Service.messageNames (s : Service) : List String :=
  s.resources.flatMap fun r => r.messages.map fun m => String.ofList m.1

/-- The declarations of a service. -/
def Service.definitionLines (s : Service) : List DeclarationLines :=
  s.types.map DeclaredType.lines ++ s.resources.flatMap Resource.messageLines

/-- The comment at the top of the declarations. -/
def Service.definitionsHeading (s : Service) (schema : FilePath) : List Char :=
  "//".toList ++ (" Generated by schemaforge ".toList ++ (Project.generatorVersion.toList ++
    (" from ".toList ++ (schema.text.toList ++ ['.'])))) ++ ['\n'] ++
  ("//".toList ++ (" Protocol version ".toList ++ (s.protocolVersion.toList ++
    ". Do not edit by hand.".toList)) ++ ['\n']) ++ ['\n']

/-- The type definitions of a service. -/
def Service.definitionsText (s : Service) (schema : FilePath) : String :=
  String.ofList (s.definitionsHeading schema ++ s.definitionLines.flatMap DeclarationLines.text)

/-! ### Rendering -/

namespace Project

open Template (Names Pattern Place Value)
open Template.Pattern (text?_done text?_text text?_value text?_branch_yes text?_branch_no)

variable {names : Names} {x name text : String} {j v : Json} {rest : Pattern} {others : List Char}

theorem value?_field (hx : Keyed.lookup x names = some (.ofJson j)) (hv : j.field? name = some v) :
    (field x name).value? names = some (.ofJson v) := by
  rw [field, Place.value?, Place.value?, hx, Option.bind_some, Template.attribute?_ofJson, hv]
  rfl

/-- A field that data do not have is undefined. -/
theorem value?_field_none {fields : List (String × Json)}
    (hx : Keyed.lookup x names = some (.ofJson (.obj fields)))
    (hv : (Json.obj fields).field? name = none) :
    (field x name).value? names = some .undefined := by
  rw [field, Place.value?, Place.value?, hx, Option.bind_some, Template.attribute?_ofJson, hv,
    Value.ofJson]
  rfl

/-- A text of data is written as it is. -/
theorem text?_field (hx : Keyed.lookup x names = some (.ofJson j))
    (hs : j.field? name = some (.str text)) (h : rest.text? names = some others) :
    (Pattern.value (field x name) rest).text? names = some (text.toList ++ others) := by
  have hvalue := text?_value (value?_field hx hs) h
  rwa [Template.display_str] at hvalue

theorem text?_remarkPattern {indent : String} (hx : Keyed.lookup x names = some (.ofJson j))
    (hd : j.field? "description" = some (.str text)) (h : rest.text? names = some others) :
    (remarkPattern x indent rest).text? names = some (remark indent text ++ others) := by
  have hvalue := value?_field hx hd
  have hcomment := text?_text (indent ++ "/** ") (text?_field hx hd (text?_text " */\n" text?_done))
  rw [remarkPattern, remark]
  by_cases hempty : text.isEmpty = true
  · rw [if_pos hempty]
    exact text?_branch_no hvalue (by simp [Template.isTrue_str, hempty]) text?_done h
  · rw [if_neg hempty, text?_branch_yes hvalue (by simp [Template.isTrue_str, hempty]) hcomment h]
    simp

/-- The mark of a field that is not required. -/
theorem text?_mark (f : Field) (hx : Keyed.lookup "f" names = some (.ofJson f.encode))
    (h : rest.text? names = some others) :
    (Pattern.branch true (field "f" "required") (.text "?" .done) .done rest).text? names =
      some ((if f.required then [] else ['?']) ++ others) := by
  have hrequired : (field "f" "required").value? names = some (.ofJson (.bool f.required)) :=
    value?_field hx rfl
  by_cases hcase : f.required = true
  · rw [if_pos hcase]
    exact text?_branch_no hrequired (by simp [Template.isTrue_bool, hcase]) text?_done h
  · rw [if_neg hcase]
    exact text?_branch_yes hrequired (by simp [Template.isTrue_bool, hcase])
      (text?_text "?" text?_done) h

theorem text?_fieldPattern (f : Field) (hx : Keyed.lookup "f" names = some (.ofJson f.encode)) :
    fieldPattern.text? names = some f.line.text := by
  have htype := text?_text ": " (text?_field hx (show f.encode.field? "mapped_type" = _ from rfl)
    (text?_text ";\n" text?_done))
  have hmember := text?_text "  " (text?_field hx (show f.encode.field? "name" = _ from rfl)
    (text?_mark f hx htype))
  refine (text?_remarkPattern hx rfl hmember).trans ?_
  cases hcase : f.required <;> simp [Field.line, MemberLine.text, propertyMarks, hcase]

/-- The fields of the written form of a type. -/
theorem field?_encode_declaredType (t : DeclaredType) :
    t.encode.field? "name" = some (.str t.name) ∧
      t.encode.field? "description" = some (.str t.description) ∧
      t.encode.field? "fields" = some (.arr (t.fields.map Field.encode)) ∧
      t.encode.field? "alias_of" = t.aliasOf.map .str := by
  obtain ⟨_, _, _, aliasOf, _⟩ := t
  cases aliasOf <;> exact ⟨rfl, rfl, rfl, rfl⟩

theorem text?_typePattern (t : DeclaredType)
    (hx : Keyed.lookup "t" names = some (.ofJson t.encode)) :
    typePattern.text? names = some t.lines.text := by
  obtain ⟨hname, hdescription, hfields, hof⟩ := field?_encode_declaredType t
  -- an alias that is left out is undefined, which is no more true than an empty one
  obtain ⟨v, halias, hdisplay, htrue⟩ : ∃ v, (field "t" "alias_of").value? names = some v ∧
      v.display = t.aliasOf.getD "" ∧ v.isTrue = !(t.aliasOf.getD "").isEmpty := by
    rcases h : t.aliasOf with _ | a <;> rw [h] at hof
    · exact ⟨_, value?_field_none hx hof, rfl, rfl⟩
    · exact ⟨_, value?_field hx hof, Template.display_str a, Template.isTrue_str a⟩
  have hmembers : (Pattern.each "f" (field "t" "fields") fieldPattern _).text? names =
      some (t.fields.flatMap (fun f => f.line.text) ++ _) :=
    Template.text?_each (value?_field hx hfields)
      (fun f _ => text?_fieldPattern f (by simp [Keyed.lookup])) (text?_text "\x7d\n" text?_done)
  have hinterface := text?_text "export interface "
    (text?_field hx hname (text?_text " \x7b\n" hmembers))
  have htypeAlias := text?_text "export type " (text?_field hx hname
    (text?_text " = " (text?_value halias (text?_text ";\n" text?_done))))
  rw [hdisplay] at htypeAlias
  unfold typePattern DeclaredType.lines
  by_cases hempty : (t.aliasOf.getD "").isEmpty = true
  · rw [text?_remarkPattern hx hdescription
      (text?_branch_no halias (by simp [htrue, hempty]) hinterface (text?_text "\n" text?_done))]
    simp [hempty, DeclarationLines.text, interfaceText, bodyLines, List.flatMap_map]
  · rw [text?_remarkPattern hx hdescription
      (text?_branch_yes halias (by simp [htrue, hempty]) htypeAlias (text?_text "\n" text?_done))]
    simp [hempty, DeclarationLines.text, aliasText]

/-- Texts with the same text between them. -/
theorem text?_namedPattern {r : Resource} (hx : Keyed.lookup "r" names = some (.ofJson r.encode)) :
    ∀ texts, (namedPattern texts).text? names =
      some (Text.joinWith r.name.toList (texts.map String.toList))
  | [] => rfl
  | [last] => by
    rw [namedPattern, text?_text last text?_done, List.append_nil]
    rfl
  | first :: second :: texts => by
    have hrest := text?_namedPattern hx (second :: texts)
    have hnamed :=
      text?_text first (text?_field hx (show r.encode.field? "name" = _ from rfl) hrest)
    rw [namedPattern.eq_def]
    exact hnamed.trans (congrArg some (List.append_assoc _ _ _).symm)

theorem text?_messages (r : Resource) (hx : Keyed.lookup "r" names = some (.ofJson r.encode)) :
    (namedPattern messageTexts).text? names =
      some (r.messageLines.flatMap DeclarationLines.text) := by
  rw [text?_namedPattern hx]
  simp [messageTexts, Text.joinWith, Resource.messageLines, Resource.messagesHeading,
    Resource.messages, DeclarationLines.text, interfaceText, bodyLines, messageName, messageLine,
    MemberLine.text, propertyMarks]

/-- The names that the data of a task have. -/
theorem lookup_taskData (about : Json) (service : Service) {id : String} {v : Value}
    (h : Keyed.lookup id [("service", Value.ofJson service.encode), ("meta", .ofJson about)] =
      some v) :
    Keyed.lookup id (Template.rootNames (taskData about service none)) = some v := by
  simp only [Keyed.lookup] at h
  split_ifs at h with hservice hmeta
  · obtain rfl := hservice
    obtain rfl := Option.some.inj h
    rw [taskData, Template.lookup_rootNames (by decide +kernel)]
    simp [Keyed.sortedFields, Keyed.lookup_insertSorted]
  · obtain rfl := hmeta
    obtain rfl := Option.some.inj h
    rw [taskData, Template.lookup_rootNames (by decide +kernel)]
    simp [Keyed.sortedFields, Keyed.lookup_insertSorted]

/-- **The template becomes the declarations of the service**, under a heading. -/
theorem render_definitionsTemplate (now : Instant) (targetVersion : String) (schema : FilePath)
    (service : Service) :
    Template.render definitionsTemplate
        (taskData (metadata now targetVersion schema) service none) =
      .ok (service.definitionsText schema) := by
  let about := metadata now targetVersion schema
  let names : Names := [("service", .ofJson service.encode), ("meta", .ofJson about)]
  refine Template.render_pattern isScript_definitionsPattern
    (fun id v => lookup_taskData about service) rfl (by decide) ?_
  have hservice : Keyed.lookup "service" names = some (.ofJson service.encode) := rfl
  have hmeta : Keyed.lookup "meta" names = some (.ofJson about) := rfl
  have hresources : (Pattern.each "r" (field "service" "resources") (namedPattern messageTexts)
      .done).text? names =
      some (service.resources.flatMap
        (fun r => r.messageLines.flatMap DeclarationLines.text) ++ []) :=
    Template.text?_each (value?_field hservice rfl)
      (fun r _ => text?_messages r (by simp [Keyed.lookup])) text?_done
  have htypes : (Pattern.each "t" (field "service" "types") typePattern _).text? names =
      some (service.types.flatMap (fun t => t.lines.text) ++ _) :=
    Template.text?_each (value?_field hservice rfl)
      (fun t _ => text?_typePattern t (by simp [Keyed.lookup])) hresources
  have hversion := text?_text ".\n// Protocol version "
    (text?_field hservice (show service.encode.field? "protocol_version" = _ from rfl)
      (text?_text ". Do not edit by hand.\n\n" htypes))
  have hheading := text?_text "// Generated by schemaforge "
    (text?_field hmeta (show about.field? "generator_version" = _ from rfl)
      (text?_text " from " (text?_field hmeta (show about.field? "schema_path" = _ from rfl)
        hversion)))
  rw [definitionsPattern, hheading]
  simp [Service.definitionsHeading, Service.definitionLines, List.flatMap_map, List.flatMap_assoc]

end Project

end ServiceScaffold
