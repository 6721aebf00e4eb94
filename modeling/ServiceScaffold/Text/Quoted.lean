import ServiceScaffold.Text.Case
import ServiceScaffold.Text.HiddenTable

/-!
# Quoted texts

A text between double quotes (`quoted`).  Marks are written after a backslash, line breaks and tabs
by a letter, and characters without a sign of their own by their number, so that what is shown never
looks like anything else.
-/

namespace ServiceScaffold.Text

/-- A character that is shown by its number: it has no sign of its own. -/
def isHidden (c : Char) : Bool :=
  if c.toNat < 128 then c.toNat < 32 || c.toNat == 127 else inRanges hiddenRows c.toNat

/-- A character between quotes; `marks` are written after a backslash. -/
def escapeChar (marks : List Char) (c : Char) : List Char :=
  if marks.contains c then ['\\', c]
  else if c = '\n' then ['\\', 'n']
  else if c = '\r' then ['\\', 'r']
  else if c = '\t' then ['\\', 't']
  else if c.toNat = 0 then ['\\', '0']
  else if isHidden c then ['\\', 'u', '\x7b'] ++ Nat.toDigits 16 c.toNat ++ ['\x7d']
  else [c]

/-- A text between quotes; `marks` are written after a backslash. -/
def quoted (marks : List Char) (chars : List Char) : List Char :=
  '"' :: chars.flatMap (escapeChar marks) ++ ['"']

end ServiceScaffold.Text
