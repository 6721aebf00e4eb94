import ServiceScaffold.Failure
import ServiceScaffold.FilePath.Basic
import ServiceScaffold.ScalarType
import ServiceScaffold.Schema.Basic
import ServiceScaffold.Service.Operations

/-!
# From schema to service

`Service.ofSchema` turns every name with the resource role into a resource and collects the types
to declare: the resources, then the other interfaces, then the other type aliases.  It fails at the
first resource that is not declared or whose route segment would be empty.
-/

namespace ServiceScaffold

/-- Why a name is no resource. -/
inductive ResourceProblem where
  /-- The name has the resource role, but no interface and no type alias has the name. -/
  | undeclared (name : String)
  /-- The route segment of the name is empty. -/
  | emptyRoute (name : String)
  deriving DecidableEq, Repr

/-- The text of a problem. -/
def ResourceProblem.message : ResourceProblem → String
  | .undeclared name => "`" ++ name ++ "` is tagged as a resource but never declared"
  | .emptyRoute name => "resource name `" ++ name ++ "` yields an empty route segment"

/-- The name of the service of a schema file: the file name without its extension, in kebab case. -/
def Service.nameOf (schemaFile : FilePath) : String :=
  match schemaFile.fileStem? with
  | some (c :: stem) => Naming.kebab (String.ofList (c :: stem))
  | _ => Service.defaultName

/-- A property as a field, its type mapped. -/
def Field.ofProperty (p : Property) : Field :=
  let mapped := ScalarType.map p.type
  { name := p.name
    type := mapped.type
    required := !p.isOptional
    repeated := mapped.repeated
    description := p.description.getD "" }

/-- The resource of a name. -/
def Resource.ofName (schema : Schema) (name : String) : Except ResourceProblem Resource :=
  let segment := Naming.routeSegment name
  if !schema.isDeclared name then .error (.undeclared name)
  else if segment.isEmpty then .error (.emptyRoute name)
  else .ok
    { name := name
      description := (schema.descriptionOf name).getD (name ++ " resource")
      pluralPath := segment
      fields := ((schema.interface? name).map (·.properties.map Field.ofProperty)).getD []
      operations := Operation.allOf name segment }

/-- The resources of names, or the first problem together with the name that has it. -/
def Resource.ofNames (schema : Schema) :
    List String → Except (String × ResourceProblem) (List Resource)
  | [] => .ok []
  | name :: names =>
    match Resource.ofName schema name with
    | .error problem => .error (name, problem)
    | .ok resource => (Resource.ofNames schema names).map (resource :: ·)

/-- The type of a resource; it is an alias if no interface has its name. -/
def DeclaredType.ofResource (schema : Schema) (r : Resource) : DeclaredType where
  name := r.name
  description := r.description
  fields := r.fields
  aliasOf := if (schema.interface? r.name).isSome then none else (schema.alias? r.name).map (·.type)
  isResource := true

/-- The type of an interface. -/
def DeclaredType.ofInterface (i : Interface) : DeclaredType where
  name := i.name
  description := i.description.getD ""
  fields := i.properties.map Field.ofProperty
  aliasOf := none
  isResource := false

/-- The type of a type alias. -/
def DeclaredType.ofAlias (t : TypeAlias) : DeclaredType where
  name := t.name
  description := t.description.getD ""
  fields := []
  aliasOf := some t.type
  isResource := false

namespace Service

/-- The types to declare: the resources, then the other interfaces, then the other aliases. -/
def declaredTypes (schema : Schema) (resources : List Resource) : List DeclaredType :=
  let isResource (name : String) := resources.any (·.name == name)
  resources.map (DeclaredType.ofResource schema) ++
    ((schema.interfaces.map Prod.snd).filter (!isResource ·.name)).map DeclaredType.ofInterface ++
    ((schema.types.map Prod.snd).filter (!isResource ·.name)).map DeclaredType.ofAlias

/-- The failure that reports a problem with one resource of a service. -/
def mappingFailure (service resource : String) (problem : ResourceProblem) : Failure :=
  let context := "resource `" ++ resource ++ "`"
  let message :=
    "mapping service `" ++ service ++ "` failed: " ++ context ++ ": " ++ problem.message
  ((Failure.new .mapper message).withCauses [.text context, .text problem.message]).withText
    "service" service

/-- The service that a schema describes. -/
def ofSchema (name : String) (schema : Schema) : Except Failure Service :=
  match Resource.ofNames schema schema.roles.resources with
  | .error (resource, problem) => .error (mappingFailure name resource problem)
  | .ok resources => .ok ⟨name, schema.version, resources, declaredTypes schema resources⟩

end Service

end ServiceScaffold
