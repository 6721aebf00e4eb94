import ServiceScaffold.Json.Basic
import ServiceScaffold.Json.Shape

/-!
# Reading records

A record with fixed fields is read from an object, in which unknown fields are passed over and a
known field may stand only once, or from an array with the values in the order of the fields.
-/

namespace ServiceScaffold.Record

/-- The values of one field in an object, in order. -/
def valuesOf (name : String) (fields : List (String × Json)) : List Json :=
  (fields.filter (·.1 == name)).map Prod.snd

/-- The value of one field, absent or present once; a repeated field is an error. -/
def single? (name : String) (fields : List (String × Json)) : Option (Option Json) :=
  match valuesOf name fields with
  | [] => some none
  | [v] => some (some v)
  | _ => none

/-- The fields of a record, by name, with the shapes of their values. -/
abbrev Layout := List (String × Json.Shape)

/-- The values of the fields of a record, each of which may be absent. -/
def read? (record : Layout) : Json → Option (List (Option Json))
  | .obj fields => record.mapM fun (name, _) => single? name fields
  | .arr items =>
    if record.length < items.length then none
    else some (items.map some ++ List.replicate (record.length - items.length) none)
  | _ => none

/-- A text. -/
def text? : Option Json → Option String
  | some (.str s) => some s
  | _ => none

/-- A truth value. -/
def bool? : Option Json → Option Bool
  | some (.bool b) => some b
  | _ => none

/-- A count. -/
def count? : Option Json → Option Nat
  | some (.int n) => if 0 ≤ n then some n.toNat else none
  | _ => none

/-- A text that may be null or absent. -/
def optionalText? : Option Json → Option (Option String)
  | none => some none
  | some .null => some none
  | some (.str s) => some (some s)
  | _ => none

/-- A list of values. -/
def list? {α : Type} (decode : Json → Option α) : Option Json → Option (List α)
  | some (.arr items) => items.mapM decode
  | _ => none

/-- A list of values that may be absent. -/
def optionalList? {α : Type} (decode : Json → Option α) : Option Json → Option (List α)
  | none => some []
  | v => list? decode v

/-- A map from texts to values: each key where it first stood, with its last value. -/
def map? {α : Type} (decode : Json → Option α) : Option Json → Option (List (String × α))
  | some (.obj fields) =>
    (fields.mapM fun field : String × Json => (decode field.2).map fun a => (field.1, a)).map
      Keyed.dropRepeated
  | _ => none

/-- The name of one of several cases: a text, or an object with this key and null. -/
def caseName? : Option Json → Option String
  | some (.str s) => some s
  | some (.obj [(s, .null)]) => some s
  | _ => none

end ServiceScaffold.Record
