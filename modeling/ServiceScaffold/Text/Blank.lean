/-!
# Blanks, lines and affixes

Blank characters, trimming, splitting into words and lines, and cutting off a fixed beginning or
end.  All functions work on lists of characters.
-/

namespace ServiceScaffold.Text

/-- The property White_Space. -/
def isBlank (c : Char) : Bool :=
  let n := c.toNat
  (9 ≤ n && n ≤ 13) || n == 32 || n == 0x85 || n == 0xa0 || n == 0x1680 ||
    (0x2000 ≤ n && n ≤ 0x200a) || n == 0x2028 || n == 0x2029 || n == 0x202f || n == 0x205f ||
    n == 0x3000

/-- `cs` without the blanks at its start. -/
def trimStart (cs : List Char) : List Char := cs.dropWhile isBlank

/-- `cs` without the longest end whose characters all satisfy `p`. -/
def dropEndWhile (p : Char → Bool) (cs : List Char) : List Char :=
  (cs.reverse.dropWhile p).reverse

/-- `cs` without the blanks at its end. -/
def trimEnd (cs : List Char) : List Char := dropEndWhile isBlank cs

/-- `cs` without the blanks at both ends. -/
def trim (cs : List Char) : List Char := trimEnd (trimStart cs)

/-- `cs` without `front`, if it starts so. -/
def stripFront? (front cs : List Char) : Option (List Char) := front.isPrefixOf? cs

/-- `cs` without `back`, if it ends so. -/
def stripBack? (back cs : List Char) : Option (List Char) := back.isSuffixOf? cs

/-- Cuts before every character that satisfies `p` and drops these characters: `n` cuts give
`n + 1` pieces. -/
def splitOn (p : Char → Bool) : List Char → List (List Char)
  | [] => [[]]
  | c :: cs =>
    if p c then [] :: splitOn p cs
    else match splitOn p cs with
      | [] => [[c]]
      | piece :: pieces => (c :: piece) :: pieces

/-- The maximal runs of characters that are not blank. -/
def fields (cs : List Char) : List (List Char) :=
  (splitOn isBlank cs).filter (!·.isEmpty)

/-- `sep` between consecutive elements. -/
def joinWith (sep : List Char) : List (List Char) → List Char
  | [] => []
  | [x] => x
  | x :: xs => x ++ sep ++ joinWith sep xs

/-- Every run of blanks is one space, and none is left at the ends. -/
def collapseBlanks (cs : List Char) : List Char := joinWith [' '] (fields cs)

/-- A line without the carriage return at its end. -/
def dropReturn (line : List Char) : List Char := (stripBack? ['\r'] line).getD line

/-- The lines of a text: each ends with a line feed, or a carriage return and a line feed; the last
one may lack it. -/
def lines (cs : List Char) : List (List Char) :=
  let pieces := splitOn (· == '\n') cs
  match pieces.getLast? with
  | some [] => pieces.dropLast.map dropReturn
  | some last => pieces.dropLast.map dropReturn ++ [last]
  | none => []

/-- `needle` occurs in `cs`, and what stands before and after its first occurrence. -/
def cut? (needle : List Char) : List Char → Option (List Char × List Char)
  | [] => if needle.isEmpty then some ([], []) else none
  | c :: cs =>
    match needle.isPrefixOf? (c :: cs) with
    | some rest => some ([], rest)
    | none => (cut? needle cs).map fun (front, rest) => (c :: front, rest)

/-- `needle` occurs in `cs`. -/
def contains (needle cs : List Char) : Bool := (cut? needle cs).isSome

/-- What stands before and after the last occurrence of `needle`. -/
def cutLast? (needle cs : List Char) : Option (List Char × List Char) :=
  (cut? needle.reverse cs.reverse).map fun (back, front) => (front.reverse, back.reverse)

/-- Every occurrence of `needle`, from left to right, becomes `image`; at most `fuel` of them. -/
def replaceAll (needle image : List Char) : Nat → List Char → List Char
  | 0, cs => cs
  | fuel + 1, cs =>
    match cut? needle cs with
    | some (front, rest) => front ++ image ++ replaceAll needle image fuel rest
    | none => cs

/-- Bytes that a character takes in UTF-8. -/
def byteWidth (c : Char) : Nat := c.utf8Size

/-- Bytes that a text takes in UTF-8. -/
def byteLength (cs : List Char) : Nat := (cs.map byteWidth).foldr (· + ·) 0

/-- The characters that start before byte `n`. -/
def takeBytes : Nat → List Char → List Char
  | _, [] => []
  | n, c :: cs => if n = 0 then [] else c :: takeBytes (n - byteWidth c) cs

/-- The characters that start at byte `n` or later. -/
def dropBytes : Nat → List Char → List Char
  | _, [] => []
  | n, c :: cs => if n = 0 then c :: cs else dropBytes (n - byteWidth c) cs

/-- The characters from byte `start` to before byte `stop`. -/
def slice (start stop : Nat) (cs : List Char) : List Char :=
  takeBytes (stop - start) (dropBytes start cs)

end ServiceScaffold.Text
