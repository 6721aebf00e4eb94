import ServiceScaffold.Json.Printer

/-!
# YAML scalars

How a text is written as a YAML scalar.  A text that would be read as another kind of value
(`readsAsOther`) is put in single quotes, a text with line feeds becomes a literal block, and every
other text stays plain; a style that the characters of the text rule out (`Shape`) gives way to the
next stricter one, the last being double quotes.
-/

namespace ServiceScaffold.Yaml

open Number Text

/-- The styles of a scalar. -/
inductive Style where
  | plain
  | single
  | double
  | literal
  deriving DecidableEq, Repr

/-! ### Texts that read as other values -/

/-- `cs` are digits of a base and the number is at most `most`. -/
def isNumberUpTo (most base : Nat) (cs : List Char) : Bool :=
  !cs.isEmpty && cs.all (fun c => (Number.hexValue? c).any (· < base)) &&
    cs.foldl (fun n c => base * n + (Number.hexValue? c).getD 0) 0 ≤ most

/-- Greatest whole number of 128 bits. -/
def maxWide : Nat := Nat.pow 2 128 - 1

/-- Greatest whole number that has a negative of 128 bits. -/
def maxNegated : Nat := Nat.pow 2 127

/-- Two or more decimal digits of which the first is a zero, after an optional sign. -/
def hasLeadingZero (cs : List Char) : Bool :=
  match (spanSign cs).2 with
  | '0' :: c :: rest => (c :: rest).all Char.isDigit
  | _ => false

/-- `cs` starts with a sign. -/
def startsSigned : List Char → Bool
  | '-' :: _ => true
  | '+' :: _ => true
  | _ => false

/-- A whole number of at most `most` in hexadecimal, octal or binary form. -/
def isPrefixedNumber (most : Nat) (cs : List Char) : Bool :=
  match cs with
  | '0' :: 'x' :: rest => isNumberUpTo most 16 rest
  | '0' :: 'o' :: rest => isNumberUpTo most 8 rest
  | '0' :: 'b' :: rest => isNumberUpTo most 2 rest
  | _ => false

/-- Without a plus sign at the start, if no further sign follows it. -/
def dropPlus? (cs : List Char) : Option (List Char) :=
  match cs with
  | '+' :: rest => if startsSigned rest then none else some rest
  | _ => some cs

/-- `cs` reads as a number. -/
def isNumber (cs : List Char) : Bool :=
  match dropPlus? cs with
  | none => false
  | some body =>
    isPrefixedNumber maxWide body ||
      (match cs with
        | '-' :: rest => isPrefixedNumber maxNegated rest
        | _ => false) ||
      ([".inf", ".Inf", ".INF"].any (·.toList == body)) ||
      (["-.inf", "-.Inf", "-.INF", ".nan", ".NaN", ".NAN"].any (·.toList == cs)) ||
      (!hasLeadingZero cs && (parseDecimal? body).any Binary64.isFinite)

/-- The words for the missing value and the truth values. -/
def reservedWords : List String :=
  ["null", "Null", "NULL", "~", "true", "True", "TRUE", "false", "False", "FALSE"]

/-- The text would not be read as a text if it stood without quotes. -/
def readsAsOther (cs : List Char) : Bool :=
  cs.isEmpty || reservedWords.any (·.toList == cs) || isNumber cs || hasLeadingZero cs

/-! ### What the characters rule out -/

/-- A line break. -/
def isBreak (c : Char) : Bool :=
  c == '\n' || c == '\r' || c.toNat == 0x85 || c.toNat == 0x2028 || c.toNat == 0x2029

/-- A space, tab or break, as they separate an indicator from a text. -/
def isGap (c : Char) : Bool := c == ' ' || c == '\t' || isBreak c

/-- A character that may be written as it is. -/
def isPrintable (c : Char) : Bool :=
  let n := c.toNat
  n == 0x0a || (0x20 ≤ n && n ≤ 0x7e) || (0xa0 ≤ n && n < 0xd800) ||
    (0xe000 ≤ n && n < 0xfffe && n != 0xfeff) || 0x10000 ≤ n

/-- What the scan of a text finds out. -/
structure Shape where
  indicator : Bool := false
  breaks : Bool := false
  special : Bool := false
  leadingGap : Bool := false
  trailingSpace : Bool := false
  trailingBreak : Bool := false
  breakThenSpace : Bool := false
  spaceThenBreak : Bool := false
  deriving Repr

/-- The character before the scanned one. -/
inductive Before where
  | nothing
  | space
  | break_
  | other
  deriving DecidableEq, Repr

/-- The character indicates something at the start of a text. -/
def indicatesFirst (c : Char) (gapFollows : Bool) : Bool :=
  "#,[]\x7b\x7d&*!|>'\"%@`".toList.contains c ||
    ((c == '?' || c == ':' || c == '-') && gapFollows)

/-- The character indicates something inside a text. -/
def indicatesLater (c : Char) (afterGap gapFollows : Bool) : Bool :=
  (c == ':' && gapFollows) || (c == '#' && afterGap)

/-- Scans the characters one after the other. -/
def scan (shape : Shape) : Before → Bool → List Char → Shape
  | _, _, [] => shape
  | before, afterGap, c :: cs =>
    let isFirst := before == .nothing
    let isLast := cs.isEmpty
    let gapFollows := match cs with
      | [] => true
      | d :: _ => isGap d
    let space := c == ' '
    let brk := isBreak c
    let shape : Shape :=
      { indicator := shape.indicator ||
          (if isFirst then indicatesFirst c gapFollows else indicatesLater c afterGap gapFollows)
        breaks := shape.breaks || brk
        special := shape.special || !isPrintable c
        leadingGap := shape.leadingGap || (isFirst && (space || brk))
        trailingSpace := shape.trailingSpace || (isLast && space)
        trailingBreak := shape.trailingBreak || (isLast && brk)
        breakThenSpace := shape.breakThenSpace || (space && before == .break_)
        spaceThenBreak := shape.spaceThenBreak || (brk && before == .space) }
    scan shape (if space then .space else if brk then .break_ else .other) (isGap c) cs

/-- The shape of a text; one that starts like a document mark indicates something. -/
def shapeOf (cs : List Char) : Shape :=
  let mark := "---".toList.isPrefixOf cs || "...".toList.isPrefixOf cs
  scan { indicator := mark } .nothing true cs

/-- The text may stand without quotes. -/
def Shape.allowsPlain (s : Shape) : Bool :=
  !(s.indicator || s.breaks || s.special || s.leadingGap || s.trailingSpace || s.trailingBreak ||
    s.breakThenSpace || s.spaceThenBreak)

/-- The text may stand in single quotes. -/
def Shape.allowsSingle (s : Shape) : Bool :=
  !(s.breakThenSpace || s.spaceThenBreak || s.special)

/-- The text may stand in a literal block. -/
def Shape.allowsLiteral (s : Shape) : Bool :=
  !(s.trailingSpace || s.spaceThenBreak || s.special)

/-- The style of a text; a key that must stay on one line is never a block. -/
def styleOf (isKey : Bool) (cs : List Char) : Style :=
  let s := shapeOf cs
  let wanted : Style :=
    if cs.contains '\n' then .literal else if readsAsOther cs then .single else .plain
  let wanted := if isKey && s.breaks then .double else wanted
  match wanted with
  | .plain =>
    if s.allowsPlain && !cs.isEmpty then .plain
    else if s.allowsSingle then .single else .double
  | .single => if s.allowsSingle then .single else .double
  | .literal => if s.allowsLiteral && !cs.isEmpty && !isKey then .literal else .double
  | .double => .double

/-! ### Writing -/

/-- The number of a letter after a backslash that stands for a character. -/
def shortEscape? (n : Nat) : Option Char :=
  match n with
  | 0x00 => some '0'
  | 0x07 => some 'a'
  | 0x08 => some 'b'
  | 0x09 => some 't'
  | 0x0a => some 'n'
  | 0x0b => some 'v'
  | 0x0c => some 'f'
  | 0x0d => some 'r'
  | 0x1b => some 'e'
  | 0x22 => some '"'
  | 0x5c => some '\\'
  | 0x85 => some 'N'
  | 0x2028 => some 'L'
  | 0x2029 => some 'P'
  | _ => none

/-- `width` hexadecimal digits in upper case. -/
def upperHex : Nat → Nat → List Char
  | 0, _ => []
  | width + 1, n => (Json.hexDigit (n / Nat.pow 16 width % 16)).toUpper :: upperHex width n

/-- A character inside double quotes. -/
def escapeDouble (c : Char) : List Char :=
  let n := c.toNat
  if isPrintable c && !isBreak c && c != '"' && c != '\\' then [c]
  else match shortEscape? n with
    | some letter => ['\\', letter]
    | none =>
      if n ≤ 0xff then ['\\', 'x'] ++ upperHex 2 n else ['\\', 'u'] ++ upperHex 4 n

/-- `n` spaces. -/
def spaces (n : Nat) : List Char := List.replicate n ' '

/-- A text inside single quotes; what follows a line break is indented. -/
def singleBody (indent : Nat) : Bool → List Char → List Char
  | afterBreak, [] => if afterBreak then spaces indent else []
  | afterBreak, c :: cs =>
    if isBreak c then c :: singleBody indent true cs
    else
      let lead := if afterBreak && c != ' ' then spaces indent else []
      lead ++ (if c = '\'' then ['\'', '\''] else [c]) ++
        singleBody indent (afterBreak && c == ' ') cs

/-- The lines of a literal block; empty lines are not indented. -/
def literalBody (indent : Nat) : Bool → List Char → List Char
  | _, [] => []
  | afterBreak, c :: cs =>
    if isBreak c then c :: literalBody indent true cs
    else (if afterBreak then spaces indent else []) ++ c :: literalBody indent false cs

/-- Says that the first line of a literal block starts with a blank. -/
def indentHint (cs : List Char) : List Char :=
  match cs with
  | c :: _ => if c == ' ' || isBreak c then ['2'] else []
  | [] => []

/-- Says what becomes of the breaks at the end of a literal block. -/
def chompHint (cs : List Char) : List Char :=
  match cs.reverse with
  | [] => ['-']
  | c :: rest =>
    if !isBreak c then ['-']
    else match rest with
      | [] => ['+']
      | d :: _ => if isBreak d then ['+'] else []

/-- A text as a scalar whose further lines are indented. -/
def textScalar (isKey : Bool) (indent : Nat) (s : String) : String :=
  let cs := s.toList
  String.ofList <| match styleOf isKey cs with
    | .plain => cs
    | .single => '\'' :: singleBody indent false cs ++ ['\'']
    | .double => '"' :: cs.flatMap escapeDouble ++ ['"']
    | .literal => '|' :: indentHint cs ++ chompHint cs ++ '\n' :: literalBody indent true cs

/-- A scalar at the end of a line.  A block that ends with a break ends the line itself. -/
def endLine (scalar : String) : String :=
  if scalar.toList.getLast?.any isBreak then scalar else scalar ++ "\n"

/-- A number with a point or an exponent. -/
def floatScalar (x : Binary64) : String :=
  if x.isNaN then ".nan"
  else if !x.isFinite then if x.isNegative then "-.inf" else ".inf"
  else String.ofList (scientificText (-5) false x)

end ServiceScaffold.Yaml
