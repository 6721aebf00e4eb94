import ServiceScaffold.Keyed
import ServiceScaffold.Number.Binary64

/-!
# JSON values

A JSON value keeps the fields of an object in the order in which they were written, repeated keys
included; `Keyed.dropRepeated` keeps the last value of each key where the key first stood.
-/

namespace ServiceScaffold

/-- A JSON value.  Whole numbers are kept apart from those written with a point or an exponent. -/
inductive Json where
  | null
  | bool (b : Bool)
  | int (n : Int)
  | float (x : Binary64)
  | str (s : String)
  | arr (items : List Json)
  | obj (fields : List (String × Json))
  deriving Inhabited, Repr

namespace Json

/-- The last value of a field of an object. -/
def field? (key : String) : Json → Option Json
  | .obj fields => Keyed.lookup key fields.reverse
  | _ => none

/-- The text of a string value. -/
def string? : Json → Option String
  | .str s => some s
  | _ => none

/-- The truth value of a boolean. -/
def bool? : Json → Option Bool
  | .bool b => some b
  | _ => none

/-- The items of an array. -/
def items? : Json → Option (List Json)
  | .arr items => some items
  | _ => none

/-- The fields of an object. -/
def fields? : Json → Option (List (String × Json))
  | .obj fields => some fields
  | _ => none

/-- An array of texts. -/
def ofStrings (texts : List String) : Json := .arr (texts.map .str)

/-- A text, or null if there is none. -/
def ofString? : Option String → Json
  | some s => .str s
  | none => .null

end Json

end ServiceScaffold
