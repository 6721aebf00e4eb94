import ServiceScaffold.Keyed

/-!
# Shapes of JSON values

A shape says which parts of a value are of use to its reader.  The fields of an object that a record
does not name are of no use.
-/

namespace ServiceScaffold.Json

/-- Which parts of a value are of use. -/
inductive Shape where
  /-- All of it. -/
  | whole
  /-- None of it. -/
  | unused
  /-- A list of values of a shape. -/
  | list (item : Shape)
  /-- An object with values of a shape under any keys. -/
  | map (item : Shape)
  /-- The fields of these names, or a list with their values. -/
  | record (fields : List (String × Shape))
  deriving Inhabited, Repr

namespace Shape

/-- The shape of an item of an array. -/
def item (i : Nat) : Shape → Shape
  | .unused => .unused
  | .list item => item
  | .record fields => (fields[i]?.map Prod.snd).getD .whole
  | _ => .whole

/-- The shape of a field of an object. -/
def field (key : String) : Shape → Shape
  | .unused => .unused
  | .map item => item
  | .record fields => (Keyed.lookup key fields).getD .unused
  | _ => .whole

/-- Nothing of the value is of use. -/
def isUnused : Shape → Bool
  | .unused => true
  | _ => false

end Shape

end ServiceScaffold.Json
