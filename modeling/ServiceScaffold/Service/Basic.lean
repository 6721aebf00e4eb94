/-!
# Services

The service that is generated from a schema: its resources with their routes, fields and
operations, and the types that its code declares.
-/

namespace ServiceScaffold

/-- The operations that every resource has. -/
inductive OperationKind where
  | get
  | list
  | create
  | update
  | delete
  deriving DecidableEq, Repr, Inhabited

/-- The methods of requests. -/
inductive HttpMethod where
  | get
  | post
  | put
  | delete
  deriving DecidableEq, Repr, Inhabited

namespace HttpMethod

/-- All methods. -/
def all : List HttpMethod := [.get, .post, .put, .delete]

/-- The name of a method in a request. -/
def text : HttpMethod → String
  | .get => "GET"
  | .post => "POST"
  | .put => "PUT"
  | .delete => "DELETE"

/-- The method with a given name. -/
def ofText? (text : String) : Option HttpMethod := all.find? (·.text == text)

end HttpMethod

namespace OperationKind

/-- The operations in the order in which a resource lists them. -/
def all : List OperationKind := [.get, .list, .create, .update, .delete]

/-- The name of the kind. -/
def text : OperationKind → String
  | .get => "get"
  | .list => "list"
  | .create => "create"
  | .update => "update"
  | .delete => "delete"

/-- The kind with a given name. -/
def ofText? (text : String) : Option OperationKind := all.find? (·.text == text)

/-- The verb in names of request and result types. -/
def verb : OperationKind → String
  | .get => "Get"
  | .list => "List"
  | .create => "Create"
  | .update => "Update"
  | .delete => "Delete"

/-- The method of the requests. -/
def method : OperationKind → HttpMethod
  | .get => .get
  | .list => .get
  | .create => .post
  | .update => .put
  | .delete => .delete

/-- The operation works on a single item, and its route ends in the item's identifier. -/
def onItem : OperationKind → Bool
  | .get => true
  | .list => false
  | .create => false
  | .update => true
  | .delete => true

end OperationKind

/-- An operation of a resource. -/
structure Operation where
  name : String
  kind : OperationKind
  method : HttpMethod
  route : String
  inputType : String
  outputType : String
  description : String
  deriving DecidableEq, Repr, Inhabited

/-- A field of a resource or type. -/
structure Field where
  name : String
  type : String
  required : Bool
  repeated : Bool
  description : String
  deriving DecidableEq, Repr, Inhabited

/-- A resource with its route segment, fields and operations. -/
structure Resource where
  name : String
  description : String
  pluralPath : String
  fields : List Field
  operations : List Operation
  deriving DecidableEq, Repr, Inhabited

/-- A type that the code of the service declares; an alias has no fields. -/
structure DeclaredType where
  name : String
  description : String
  fields : List Field
  aliasOf : Option String
  isResource : Bool
  deriving DecidableEq, Repr, Inhabited

/-- A service. -/
structure Service where
  name : String
  protocolVersion : String
  resources : List Resource
  types : List DeclaredType
  deriving DecidableEq, Repr, Inhabited

/-- The name of a service that is not given one. -/
def Service.defaultName : String := "mcp-service"

end ServiceScaffold
