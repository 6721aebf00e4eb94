import ServiceScaffold.Yaml.Scalar

/-!
# Printing YAML

Values in block form.  The items of a sequence below a key stand at the indentation of that key,
and the entries of a mapping below a key are indented by two spaces.
-/

namespace ServiceScaffold.Yaml

/-- A value that stands on the line of its key or dash. -/
def inlineScalar (indent : Nat) : Json → String
  | .null => "null"
  | .bool b => if b then "true" else "false"
  | .int n => String.ofList (Number.intText n)
  | .float x => floatScalar x
  | .str s => textScalar false (indent + 2) s
  | .arr _ => "[]"
  | .obj _ => "\x7b\x7d"

/-- Longest key, in bytes, that stands in front of a colon on its own line. -/
def maxKeyLength : Nat := 128

/-- The key can stand in front of a colon. -/
def isSimpleKey (key : String) : Bool :=
  !(shapeOf key.toList).breaks && key.utf8ByteSize ≤ maxKeyLength

/-- The spaces that a line starts with. -/
def pad (indent : Nat) : String := String.ofList (spaces indent)

mutual

/-- A value after a key of a mapping at `indent`. -/
def afterKey (indent : Nat) : Json → String
  | .arr (v :: rest) => "\n" ++ items indent true (v :: rest)
  | .obj (entry :: rest) => "\n" ++ entries (indent + 2) true (entry :: rest)
  | v => " " ++ endLine (inlineScalar indent v)

/-- A value after a dash at `indent`. -/
def afterDash (indent : Nat) : Json → String
  | .arr (v :: rest) => " " ++ items (indent + 2) false (v :: rest)
  | .obj (entry :: rest) => " " ++ entries (indent + 2) false (entry :: rest)
  | v => " " ++ endLine (inlineScalar indent v)

/-- The items of a sequence; the first one may continue a line. -/
def items (indent : Nat) (padFirst : Bool) : List Json → String
  | [] => ""
  | v :: rest =>
    (if padFirst then pad indent else "") ++ "-" ++ afterDash indent v ++ items indent true rest

/-- The entries of a mapping; the first one may continue a line. -/
def entries (indent : Nat) (padFirst : Bool) : List (String × Json) → String
  | [] => ""
  | (key, v) :: rest =>
    (if padFirst then pad indent else "") ++
      (if isSimpleKey key then textScalar true (indent + 2) key ++ ":" ++ afterKey indent v
      else "? " ++ endLine (textScalar false (indent + 2) key) ++ pad indent ++ ":" ++
        afterDash indent v) ++
      entries indent true rest

end

/-- A value as a document. -/
def document : Json → String
  | .arr (v :: rest) => items 0 true (v :: rest)
  | .obj (entry :: rest) => entries 0 true (entry :: rest)
  | v => endLine (inlineScalar 0 v)

end ServiceScaffold.Yaml
