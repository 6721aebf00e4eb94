import ServiceScaffold.Naming
import ServiceScaffold.Service.Basic

/-!
# Operations of a resource

The five operations that follow from the name of a resource and its route segment alone.
-/

namespace ServiceScaffold.OperationKind

/-- The name of the operation on a resource; a list is named in the plural. -/
def operationName (kind : OperationKind) (resource : String) : String :=
  match kind with
  | .list => "list" ++ Naming.plural resource
  | kind => kind.text ++ resource

/-- The type that the operation takes. -/
def inputType (kind : OperationKind) (resource : String) : String :=
  kind.verb ++ resource ++ "Request"

/-- The type that the operation returns: a result type of its own for lists and deletions, else the
resource. -/
def outputType (kind : OperationKind) (resource : String) : String :=
  match kind with
  | .list => "List" ++ resource ++ "Result"
  | .delete => "Delete" ++ resource ++ "Result"
  | _ => resource

/-- What the operation does. -/
def describe (kind : OperationKind) (resource : String) : String :=
  match kind with
  | .get => "Retrieve a single " ++ resource ++ " by id"
  | .list => "List " ++ resource ++ " items"
  | .create => "Create a new " ++ resource
  | .update => "Update an existing " ++ resource
  | .delete => "Delete a " ++ resource ++ " by id"

/-- The route of the operation below a segment. -/
def route (kind : OperationKind) (segment : String) : String :=
  if kind.onItem then "/" ++ segment ++ "/:id" else "/" ++ segment

/-- The operation on a resource. -/
def operation (kind : OperationKind) (resource segment : String) : Operation where
  name := kind.operationName resource
  kind := kind
  method := kind.method
  route := kind.route segment
  inputType := kind.inputType resource
  outputType := kind.outputType resource
  description := kind.describe resource

end ServiceScaffold.OperationKind

namespace ServiceScaffold

/-- The operations of a resource. -/
def Operation.allOf (resource segment : String) : List Operation :=
  OperationKind.all.map (·.operation resource segment)

end ServiceScaffold
