import ServiceScaffold.Json.Basic
import ServiceScaffold.Number.Decimal

/-!
# Printing JSON

The compact form on one line and the pretty form, which puts every item on a line of its own,
indented by two spaces a level.
-/

namespace ServiceScaffold.Json

open Number

/-- A hexadecimal digit in lower case. -/
def hexDigit (n : Nat) : Char :=
  if n < 10 then Char.ofNat ('0'.toNat + n) else Char.ofNat ('a'.toNat + (n - 10))

/-- Four hexadecimal digits. -/
def hex4 (n : Nat) : List Char :=
  [hexDigit (n / 4096 % 16), hexDigit (n / 256 % 16), hexDigit (n / 16 % 16), hexDigit (n % 16)]

/-- A character inside a quoted text. -/
def escapeChar (c : Char) : List Char :=
  if c = '"' then ['\\', '"']
  else if c = '\\' then ['\\', '\\']
  else if c = '\n' then ['\\', 'n']
  else if c = '\r' then ['\\', 'r']
  else if c = '\t' then ['\\', 't']
  else if c.toNat = 8 then ['\\', 'b']
  else if c.toNat = 12 then ['\\', 'f']
  else if c.toNat < 32 then ['\\', 'u'] ++ hex4 c.toNat
  else [c]

/-- A quoted text. -/
def quote (s : String) : String :=
  String.ofList ('"' :: s.toList.flatMap escapeChar ++ ['"'])

/-- A number with a point or an exponent; infinite and missing numbers have no form but null. -/
def floatText (x : Binary64) : String :=
  if x.isFinite then String.ofList (scientificText (-5) true x) else "null"

/-- The text of a value that holds no others. -/
def scalarText : Json → String
  | .null => "null"
  | .bool b => if b then "true" else "false"
  | .int n => String.ofList (intText n)
  | .float x => floatText x
  | .str s => quote s
  | .arr _ => "[]"
  | .obj _ => "\x7b\x7d"

mutual

/-- The value on one line, without blanks. -/
def compact : Json → String
  | .arr items => "[" ++ compactItems true items ++ "]"
  | .obj fields => "\x7b" ++ compactFields true fields ++ "\x7d"
  | v => scalarText v

/-- The items, each but the first after a comma. -/
def compactItems (first : Bool) : List Json → String
  | [] => ""
  | v :: rest => (if first then "" else ",") ++ compact v ++ compactItems false rest

/-- The fields, each but the first after a comma. -/
def compactFields (first : Bool) : List (String × Json) → String
  | [] => ""
  | (k, v) :: rest =>
    (if first then "" else ",") ++ quote k ++ ":" ++ compact v ++ compactFields false rest

end

/-- A new line indented by `depth` levels. -/
def newLine (depth : Nat) : String := String.ofList ('\n' :: List.replicate (2 * depth) ' ')

mutual

/-- The value over several lines; `depth` is the level of the line that it starts on. -/
def prettyAt (depth : Nat) : Json → String
  | .arr (v :: rest) =>
    "[" ++ newLine (depth + 1) ++ prettyAt (depth + 1) v ++ prettyItems (depth + 1) rest ++
      newLine depth ++ "]"
  | .obj ((k, v) :: rest) =>
    "\x7b" ++ newLine (depth + 1) ++ quote k ++ ": " ++ prettyAt (depth + 1) v ++
      prettyFields (depth + 1) rest ++ newLine depth ++ "\x7d"
  | v => scalarText v

/-- Further items, each after a comma on a line of its own. -/
def prettyItems (depth : Nat) : List Json → String
  | [] => ""
  | v :: rest => "," ++ newLine depth ++ prettyAt depth v ++ prettyItems depth rest

/-- Further fields, each after a comma on a line of its own. -/
def prettyFields (depth : Nat) : List (String × Json) → String
  | [] => ""
  | (k, v) :: rest =>
    "," ++ newLine depth ++ quote k ++ ": " ++ prettyAt depth v ++ prettyFields depth rest

end

/-- The value over several lines. -/
def pretty (v : Json) : String := prettyAt 0 v

end ServiceScaffold.Json
