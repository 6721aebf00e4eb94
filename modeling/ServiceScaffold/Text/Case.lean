import ServiceScaffold.Text.CaseTable
import ServiceScaffold.Text.WordTable

/-!
# Case of characters and texts

Case properties (`isLower`, `isUpper`), case maps that may yield several characters (`lowerChars`,
`upperChars`), and the lower case of a whole text (`toLower`), in which a capital sigma at the end
of a word becomes a final sigma.
-/

namespace ServiceScaffold.Text

/-- `n` stands in one of the strided rows. -/
def inStrided : List (Nat × Nat × Nat) → Nat → Bool
  | [], _ => false
  | (first, last, step) :: rows, n =>
    (first ≤ n && n ≤ last && (n - first) % step == 0) || inStrided rows n

/-- `n` stands in one of the ranges. -/
def inRanges : List (Nat × Nat) → Nat → Bool
  | [], _ => false
  | (first, last) :: rows, n => (first ≤ n && n ≤ last) || inRanges rows n

/-- The image of `n` under the first row that holds it, `n` itself if none does. -/
def shifted : List (Nat × Nat × Nat × Int) → Nat → Nat
  | [], n => n
  | (first, last, step, shift) :: rows, n =>
    if first ≤ n && n ≤ last && (n - first) % step == 0 then (Int.ofNat n + shift).toNat
    else shifted rows n

/-- The property Lowercase. -/
def isLower (c : Char) : Bool :=
  if c.toNat < 128 then c.isLower else inStrided lowercaseRows c.toNat

/-- The property Uppercase. -/
def isUpper (c : Char) : Bool :=
  if c.toNat < 128 then c.isUpper else inStrided uppercaseRows c.toNat

/-- The lower case of one character. -/
def lowerChars (c : Char) : List Char :=
  if c.toNat < 128 then [c.toLower]
  else if c.toNat = 0x130 then ['i', '\u0307']
  else [Char.ofNat (shifted toLowerRows c.toNat)]

/-- The upper case of one character. -/
def upperChars (c : Char) : List Char :=
  if c.toNat < 128 then [c.toUpper]
  else match toUpperExpansions.find? (·.1 == c.toNat) with
    | some (_, image) => image.map Char.ofNat
    | none => [Char.ofNat (shifted toUpperRows c.toNat)]

/-- The property Case_Ignorable. -/
def isCaseIgnorable (c : Char) : Bool :=
  if c.toNat < 128 then ['\'', '.', ':', '^', '`'].contains c
  else inRanges caseIgnorableRows c.toNat

/-- The property Cased, for characters that are not Case_Ignorable. -/
def isCased (c : Char) : Bool :=
  if c.toNat < 128 then c.isAlpha else inRanges casedRows c.toNat

/-- The first character of `cs` that is not Case_Ignorable exists and is Cased. -/
def meetsCased (cs : List Char) : Bool :=
  match cs.dropWhile isCaseIgnorable with
  | c :: _ => isCased c
  | [] => false

/-- Lower case of a text, given the characters before it in reverse order. -/
def toLowerAfter : List Char → List Char → List Char
  | _, [] => []
  | before, c :: rest =>
    (if c = 'Σ' then
      if meetsCased before && !meetsCased rest then ['ς'] else ['σ']
    else lowerChars c) ++ toLowerAfter (c :: before) rest

/-- Lower case of a text: a capital sigma that ends a word becomes `ς`, every other character is
mapped on its own. -/
def toLower (cs : List Char) : List Char := toLowerAfter [] cs

/-- Upper case of a text, character by character. -/
def toUpper (cs : List Char) : List Char := cs.flatMap upperChars

/-- First character in upper case, the others as they are. -/
def capitalize : List Char → List Char
  | [] => []
  | c :: cs => upperChars c ++ cs

/-- A letter, mark, digit, letter number, connector or joiner: a character of a word. -/
def isWordChar (c : Char) : Bool :=
  if c.toNat < 128 then c.isAlphanum || c == '_' else inRanges wordRows c.toNat

end ServiceScaffold.Text
