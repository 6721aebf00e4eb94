import ServiceScaffold.Text.Blank

/-!
# Mapped types

How the type text of a property is carried over: scalar names are unified by one table, and the
array forms `T[]`, `Array<T>` and `ReadonlyArray<T>` become `T[]` over the mapped element.
-/

namespace ServiceScaffold.ScalarType

open Text

/-- The table of scalar names; every other text stays as it is. -/
def mapScalar (name : String) : String :=
  if ["number", "int", "int32", "int64", "integer", "float", "double", "bigint"].contains name then
    "number"
  else if name = "string" then "string"
  else if ["boolean", "bool"].contains name then "boolean"
  else if ["bytes", "Uint8Array", "Buffer"].contains name then "Uint8Array"
  else if ["Date", "date", "timestamp", "Timestamp"].contains name then "Date"
  else name

/-- A mapped type, and whether it is an array. -/
structure Mapped where
  type : String
  repeated : Bool
  deriving DecidableEq, Repr

/-- `cs` without a pair of parentheses around it. -/
def dropParens (cs : List Char) : List Char :=
  ((stripFront? ['('] cs).bind (stripBack? [')'])).getD cs

/-- What stands between `front` and `back`. -/
def between? (front back cs : List Char) : Option (List Char) :=
  (stripFront? front cs).bind (stripBack? back)

/-- The element text of an array form. -/
def element? (cs : List Char) : Option (List Char) :=
  match stripBack? "[]".toList cs with
  | some inner => some (trim (dropParens (trim inner)))
  | none =>
    ((between? "Array<".toList ['>'] cs).orElse fun _ =>
      between? "ReadonlyArray<".toList ['>'] cs).map trim

/-- A text that needs parentheses before `[]`. -/
def needsParens (text : String) : Bool :=
  text.toList.any fun c => c == '|' || c == '&' || c == ' '

/-- Maps the text of a declared type. -/
def map (declared : String) : Mapped :=
  let text := trim declared.toList
  match element? text with
  | some inner =>
    let mapped := mapScalar (String.ofList inner)
    ⟨(if needsParens mapped then "(" ++ mapped ++ ")" else mapped) ++ "[]", true⟩
  | none => ⟨mapScalar (String.ofList text), false⟩

end ServiceScaffold.ScalarType
