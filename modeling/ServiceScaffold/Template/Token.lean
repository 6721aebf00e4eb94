import ServiceScaffold.Json.Parser
import ServiceScaffold.Template.Problem
import ServiceScaffold.Text.Blank

/-!
# Tokens of templates

A template is text with blocks, outputs and comments in it.  `tokens` cuts it into lexemes: the text
between the tags, and the names, literals and marks inside them.  A tag that stands alone on a line
takes the line with it.
-/

namespace ServiceScaffold.Template

open Text Number

/-- The tokens. -/
inductive Token where
  /-- Text outside of all tags. -/
  | data (text : String)
  | blockStart
  | blockEnd
  | outputStart
  | outputEnd
  | name (text : String)
  | text (content : String)
  | whole (n : Nat)
  | real (x : Binary64)
  /-- An operator or a bracket. -/
  | mark (text : String)
  deriving DecidableEq, Repr, Inhabited

/-- What a token is called in problems. -/
def Token.describe : Token → String
  | .data _ => "template-data"
  | .blockStart => "start of block"
  | .blockEnd => "end of block"
  | .outputStart => "start of variable block"
  | .outputEnd => "end of variable block"
  | .name _ => "identifier"
  | .text _ => "string"
  | .whole _ => "integer"
  | .real _ => "float"
  | .mark s => "`" ++ s ++ "`"

/-- A token and the line where it starts. -/
structure Lexeme where
  token : Token
  line : Nat
  deriving Repr, Inhabited

/-! ### Places -/

/-- What is left of a template, the line where it starts, and whether only blanks stand before it on
that line. -/
structure Cursor where
  rest : List Char
  line : Nat
  fresh : Bool
  deriving Inhabited

namespace Cursor

/-- The place after the next `n` characters. -/
def drop : Nat → Cursor → Cursor
  | 0, c => c
  | n + 1, c =>
    match c.rest with
    | [] => c
    | x :: rest =>
      drop n ⟨rest, if x = '\n' then c.line + 1 else c.line,
        x == '\n' || x == '\r' || (c.fresh && isBlank x)⟩

/-- The place where only `rest` is left. -/
def moveTo (c : Cursor) (rest : List Char) : Cursor := c.drop (c.rest.length - rest.length)

/-- The next characters are those of `front`. -/
def startsWith (c : Cursor) (front : List Char) : Bool := front.isPrefixOf c.rest

end Cursor

/-! ### Blanks around tags -/

/-- What happens to the blanks next to a tag. -/
inductive Trimming where
  | keep
  | standard
  | all
  deriving DecidableEq, Repr, Inhabited

/-- The trimming that the sign inside a tag asks for. -/
def Trimming.ofSign : Option Char → Trimming
  | some '-' => .all
  | some '+' => .keep
  | _ => .standard

/-- A sign that stands for a trimming. -/
def isTrimSign (c : Char) : Bool := c == '-' || c == '+'

/-- One line break less. -/
def dropLineBreak (cs : List Char) : List Char :=
  let cs := match cs with
    | '\r' :: rest => rest
    | _ => cs
  match cs with
  | '\n' :: rest => rest
  | _ => cs

/-- The place where the text after a tag starts. -/
def Trimming.after (t : Trimming) (c : Cursor) : Cursor :=
  match t with
  | .keep => c
  | .standard => c.moveTo (dropLineBreak c.rest)
  | .all => c.moveTo (trimStart c.rest)

/-- Text without the blanks at its end, if they make up the start of a line after a line feed. -/
def dropIndentation (cs : List Char) : List Char :=
  let kept := dropEndWhile (fun c => isBlank c && c != '\n' && c != '\r') cs
  if kept.isEmpty || kept.getLast? == some '\n' then kept else cs

/-- Text before a tag.  `alone` says that only blanks stand on the line before the tag. -/
def Trimming.before (t : Trimming) (alone : Bool) (cs : List Char) : List Char :=
  match t with
  | .keep => cs
  | .standard => if alone then dropIndentation cs else cs
  | .all => trimEnd cs

/-- Text after the tag that starts it, when nothing of it has been dropped yet. -/
def Trimming.inside (t : Trimming) (cs : List Char) : List Char :=
  match t with
  | .keep => cs
  | .standard => dropLineBreak cs
  | .all => trimStart cs

/-- Blanks inside of tags. -/
def isInnerBlank (c : Char) : Bool :=
  c == ' ' || c == '\t' || c == '\n' || c == '\r' || c.toNat == 12

/-! ### Text outside of tags -/

/-- The character that opens a tag after a brace. -/
def opensTag (c : Char) : Bool := c == '\x7b' || c == '%' || c == '#'

/-- The text before the next tag. -/
def untilTag : List Char → List Char
  | '\x7b' :: c :: rest => if opensTag c then [] else '\x7b' :: untilTag (c :: rest)
  | c :: rest => c :: untilTag rest
  | [] => []

/-- A block of one word: what stands after its opening is a sign, the word, a sign and the
closing. -/
def wordTag? (word cs : List Char) : Option (Trimming × List Char) := do
  let cs := if cs.head?.any isTrimSign then cs.tail else cs
  let cs ← stripFront? word (cs.dropWhile isInnerBlank)
  let cs := cs.dropWhile isInnerBlank
  let sign := cs.head?.filter isTrimSign
  let cs ← stripFront? "%\x7d".toList (if sign.isSome then cs.tail else cs)
  pure (.ofSign sign, cs)

/-- Text that is taken as it stands: the text itself, the trimming at its end, the trimming of what
follows, and what follows. -/
def rawText? : List Char → Option (List Char × Trimming × Trimming × List Char)
  | [] => none
  | c :: rest =>
    let found := (stripFront? "\x7b%".toList (c :: rest)).bind fun inner =>
      (wordTag? "endraw".toList inner).map fun (t, after) => ([], .ofSign inner.head?, t, after)
    match found with
    | some result => some result
    | none => (rawText? rest).map fun (text, result) => (c :: text, result)

/-! ### Literals -/

/-- The part of a number that is being read. -/
inductive NumberPart where
  | based
  | whole
  | fraction
  | exponent
  | exponentDigits
  deriving DecidableEq, Repr, Inhabited

/-- The part of a number to which its next character belongs. -/
def NumberPart.next (base : Nat) : NumberPart → Char → Option NumberPart
  | .whole, '.' => some .fraction
  | part, c =>
    if c == '_' then some part
    else if c.isDigit then some (if part = .exponent then .exponentDigits else part)
    else if (c == 'e' || c == 'E') && (part = .whole || part = .fraction) then some .exponent
    else if isTrimSign c && part = .exponent then some .exponentDigits
    else if part = .based && base = 16 && (hexValue? c).isSome then some part
    else none

/-- The characters of a number, and its last part. -/
def spanNumber (base : Nat) (part : NumberPart) : List Char → List Char × NumberPart
  | [] => ([], part)
  | c :: rest =>
    match part.next base c with
    | some next =>
      let (text, last) := spanNumber base next rest
      (c :: text, last)
    | none => ([], part)

/-- The whole number that digits write in a base. -/
def natOfBase? (base : Nat) (digits : List Char) : Option Nat :=
  if digits.isEmpty then none
  else digits.foldl (fun n c => n.bind fun n => (hexValue? c).bind fun d =>
    if d < base then some (base * n + d) else none) (some 0)

/-- The base that the first two characters of a number announce. -/
def baseOf : List Char → Nat
  | '0' :: c :: _ =>
    if c == 'b' || c == 'B' then 2
    else if c == 'o' || c == 'O' then 8
    else if c == 'x' || c == 'X' then 16
    else 10
  | _ => 10

/-- The token of a number, from its characters without the announcement of the base. -/
def numberToken (base : Nat) (part : NumberPart) (text : List Char) : Except String Token :=
  if text.getLast? = some '_' then .error "'_' may not occur at end of number"
  else
    let digits := text.filter (· != '_')
    if part = .whole ∨ part = .based then
      match (natOfBase? base digits).filter (· < Nat.pow 2 128) with
      | some n => .ok (.whole n)
      | none => .error "invalid integer (too large)"
    else
      match parseDecimal? digits with
      | some x => .ok (.real x)
      | none => .error "invalid float"

/-- The characters of a quoted text before its closing quote, and what follows that. -/
def spanQuoted (quote : Char) (escaped : Bool) : List Char → Option (List Char × List Char)
  | [] => none
  | c :: rest =>
    if c = quote ∧ !escaped then some ([], rest)
    else (spanQuoted quote (c == '\\' && !escaped) rest).map fun (text, rest) => (c :: text, rest)

/-- The character that a character after a backslash stands for. -/
def unescape? (c : Char) : Option Char := if c = '\'' then some c else Json.unescape? c

/-- The number that hexadecimal digits write.  A plus sign may stand in the place of the first. -/
def hexNumber? : List Char → Option Nat
  | '+' :: c :: cs => natOfBase? 16 (c :: cs)
  | cs => natOfBase? 16 cs

/-- A digit of base eight. -/
def isOctalDigit (c : Char) : Bool := '0' ≤ c && c ≤ '7'

/-- What an escape stands for. -/
inductive Escaped where
  | char (c : Char)
  /-- A unit of sixteen bits, which may be half of a character. -/
  | unit (n : Nat)
  deriving Repr, Inhabited

/-- What the characters after a backslash stand for, and how many of them belong to the escape;
an escape without a meaning stands for itself. -/
def escaped? : List Char → Option (List Escaped × Nat)
  | [] => none
  | 'u' :: rest =>
    if rest.length < 4 then none else (hexNumber? (rest.take 4)).map fun n => ([.unit n], 5)
  | 'x' :: rest =>
    if rest.length < 2 then none
    else (hexNumber? (rest.take 2)).map fun n => ([.char (Char.ofNat n)], 3)
  | c :: rest =>
    if isOctalDigit c then
      let digits := (c :: rest.takeWhile isOctalDigit).take 3
      let n := digits.foldl (fun n d => 8 * n + digitValue d) 0
      if n < 256 then some ([.char (Char.ofNat n)], digits.length) else none
    else
      match unescape? c with
      | some image => some ([.char image], 1)
      | none => some ([.char '\\', .char c], 1)

/-- Characters with escapes, each taken by itself. -/
def escapedParts? : Nat → List Char → Option (List Escaped)
  | 0, _ => some []
  | _ + 1, [] => some []
  | fuel + 1, '\\' :: rest =>
    (escaped? rest).bind fun (parts, width) =>
      (escapedParts? fuel (rest.drop width)).map (parts ++ ·)
  | fuel + 1, c :: rest => (escapedParts? fuel rest).map (.char c :: ·)

/-- The characters that parts stand for; halves of characters must come in pairs. -/
def pairUnits? : List Escaped → Option (List Char)
  | [] => some []
  | .char c :: rest => (pairUnits? rest).map (c :: ·)
  | .unit n :: rest =>
    if Json.isHighHalf n then
      match rest with
      | .unit m :: rest =>
        if Json.isLowHalf m then
          (pairUnits? rest).map
            (Char.ofNat (0x10000 + (n - 0xD800) * 0x400 + (m - 0xDC00)) :: ·)
        else none
      | _ => none
    else if Json.isLowHalf n then none
    else (pairUnits? rest).map (Char.ofNat n :: ·)

/-- The text that characters with escapes stand for. -/
def unescapeAll? (cs : List Char) : Option (List Char) :=
  (escapedParts? cs.length cs).bind pairUnits?

/-! ### Steps -/

/-- Where a template is being read. -/
inductive Mode where
  /-- Outside of tags. -/
  | outside
  /-- In a block or an output, with a number of brackets open. -/
  | inside (output : Bool) (brackets : Int)
  deriving Repr, Inhabited

/-- What one step reads. -/
structure Scanned where
  token : Option Token
  /-- Line of the token. -/
  line : Nat
  mode : Mode
  cursor : Cursor

/-- A malformed template at a line. -/
def malformedAt (c : Cursor) (detail : String) : Problem := (Problem.malformed detail).atLine c.line

/-- Reads the text before the next tag. -/
def scanData (c : Cursor) : Scanned :=
  let front := untilTag c.rest
  let stop := c.drop front.length
  let kept := match stop.rest with
    | _ :: kind :: inner =>
      (Trimming.ofSign inner.head?).before (stop.fresh && kind != '\x7b') front
    | _ => front
  ⟨if kept.isEmpty then none else some (.data (String.ofList kept)), c.line, .outside, stop⟩

/-- A malformed template that ends too early. -/
def unfinished (c : Cursor) (detail : String) : Problem := malformedAt (c.moveTo []) detail

/-- The place after the two characters that open a tag and a sign that may follow them. -/
def afterOpening (c : Cursor) : Cursor :=
  c.drop (if (c.rest.drop 2).head?.any isTrimSign then 3 else 2)

/-- Reads a comment. -/
def scanComment (c : Cursor) : Result Scanned :=
  match cut? "#\x7d".toList (afterOpening c).rest with
  | none => .error (unfinished c "unexpected end of comment")
  | some (inner, after) =>
    .ok ⟨none, c.line, .outside, (Trimming.ofSign inner.getLast?).after (c.moveTo after)⟩

/-- Reads text that is taken as it stands, after the tag that starts it. -/
def scanRaw (t : Trimming) (c : Cursor) : Result Scanned :=
  match rawText? c.rest with
  | none => .error (unfinished c "unexpected end of raw block")
  | some (text, ending, next, after) =>
    let text := t.inside text
    let text := ending.before true text
    .ok ⟨some (.data (String.ofList text)), c.line, .outside, next.after (c.moveTo after)⟩

/-- One step outside of tags. -/
def scanOutside (c : Cursor) : Result Scanned :=
  match c.rest with
  | '\x7b' :: '#' :: _ => scanComment c
  | '\x7b' :: '\x7b' :: _ => .ok ⟨some .outputStart, c.line, .inside true 0, afterOpening c⟩
  | '\x7b' :: '%' :: inner =>
    match wordTag? "raw".toList inner with
    | some (t, after) => scanRaw t (c.moveTo after)
    | none => .ok ⟨some .blockStart, c.line, .inside false 0, afterOpening c⟩
  | _ => .ok (scanData c)

/-- The end of a block or an output at the place, if there is one. -/
def closing? (output : Bool) (c : Cursor) : Option Scanned :=
  let close := if output then "\x7d\x7d".toList else "%\x7d".toList
  let token := if output then Token.outputEnd else Token.blockEnd
  if c.startsWith close then
    let next := c.drop 2
    some ⟨some token, c.line, .outside, if output then next else Trimming.standard.after next⟩
  else if c.startsWith ('-' :: close) then
    some ⟨some token, c.line, .outside, Trimming.all.after (c.drop 3)⟩
  else if c.startsWith ('+' :: close) then
    some ⟨some token, c.line, .outside, c.drop 3⟩
  else none

/-- The marks of two characters. -/
def doubleMarks : List String := ["//", "**", "==", "!=", ">=", "<="]

/-- The marks of one character. -/
def singleMarks : List Char :=
  ['+', '-', '*', '/', '%', '.', ',', ':', '~', '|', '=', '>', '<', '(', ')', '[', ']', '\x7b',
    '\x7d', '!']

/-- How a mark changes the number of open brackets. -/
def bracketChange (c : Char) : Int :=
  if c == '(' || c == '[' || c == '\x7b' then 1
  else if c == ')' || c == ']' || c == '\x7d' then -1
  else 0

/-- A character of a name. -/
def isNameChar (c : Char) : Bool := c.isAlphanum || c == '_'

/-- Reads a literal, a mark or a name. -/
def scanToken (output : Bool) (brackets : Int) (c : Cursor) : Result Scanned :=
  let mode := Mode.inside output brackets
  match doubleMarks.find? fun s => c.startsWith s.toList with
  | some s => .ok ⟨some (.mark s), c.line, mode, c.drop 2⟩
  | none =>
    match c.rest with
    | [] => .ok ⟨none, c.line, mode, c⟩
    | x :: rest =>
      if singleMarks.contains x then
        .ok ⟨some (.mark (String.singleton x)), c.line, .inside output (brackets + bracketChange x),
          c.drop 1⟩
      else if x == '"' || x == '\'' then
        match spanQuoted x false rest with
        | none => .error (unfinished c "unexpected end of string")
        | some (inner, after) =>
          match unescapeAll? inner with
          | none => .error (.plain .badEscape)
          | some cs => .ok ⟨some (.text (String.ofList cs)), c.line, mode, c.moveTo after⟩
      else if x.isDigit then
        let base := baseOf c.rest
        let skipped := if base = 10 then 0 else 2
        let start := if base = 10 then NumberPart.whole else NumberPart.based
        let (text, part) := spanNumber base start (c.rest.drop skipped)
        match numberToken base part text with
        | .ok token => .ok ⟨some token, c.line, mode, c.drop (skipped + text.length)⟩
        | .error detail => .error (malformedAt c detail)
      else
        let text := c.rest.takeWhile isNameChar
        if text.isEmpty then .error (malformedAt c "unexpected character")
        else .ok ⟨some (.name (String.ofList text)), c.line, mode, c.drop text.length⟩

/-- One step inside a tag. -/
def scanInside (output : Bool) (brackets : Int) (c : Cursor) : Result Scanned :=
  let c := c.drop (c.rest.takeWhile isInnerBlank).length
  match if brackets = 0 then closing? output c else none with
  | some scanned => .ok scanned
  | none => scanToken output brackets c

/-- One step. -/
def scanStep : Mode → Cursor → Result Scanned
  | .outside, c => scanOutside c
  | .inside output brackets, c => scanInside output brackets c

/-- The lexemes of a template and, if it cannot be read to its end, the problem there. -/
structure Lexemes where
  read : List Lexeme
  problem : Option Problem
  deriving Inhabited

/-- The lexemes from a place on.  Every step moves on, so the number of characters bounds the
steps. -/
def lexemesFrom : Nat → Mode → Cursor → Lexemes
  | 0, _, _ => ⟨[], none⟩
  | fuel + 1, mode, c =>
    if c.rest.isEmpty then ⟨[], none⟩
    else
      match scanStep mode c with
      | .error p => ⟨[], some p⟩
      | .ok s =>
        let more := lexemesFrom fuel s.mode s.cursor
        match s.token with
        | some token => { more with read := ⟨token, s.line⟩ :: more.read }
        | none => more

/-- The lexemes of a template. -/
def lexemes (source : String) : Lexemes :=
  let cs := source.toList
  lexemesFrom (cs.length + 1) .outside ⟨cs, 1, true⟩

end ServiceScaffold.Template
