import ServiceScaffold.Number.Decimal
import ServiceScaffold.Toml.Basic

/-!
# Reading TOML

`Toml.parse?` reads a document: lines with headers and entries, blank lines and comments.  Values
are texts in one of four kinds of quotes, numbers, truth values, dates, arrays and tables.
-/

namespace ServiceScaffold.Toml

open Number Text

/-! ### Blanks and comments -/

/-- Blanks inside a line. -/
def skipBlanks (cs : List Char) : List Char := cs.dropWhile fun c => c == ' ' || c == '\t'

/-- A line feed, possibly after a carriage return. -/
def lineBreak? : List Char → Option (List Char)
  | '\n' :: rest => some rest
  | '\r' :: '\n' :: rest => some rest
  | _ => none

/-- A character that does not stand in a document as it is. -/
def isControl (c : Char) : Bool := (c.toNat < 32 && c != '\t') || c.toNat == 127

/-- A comment, if one starts here. -/
def skipComment? (cs : List Char) : Option (List Char) :=
  match cs with
  | '#' :: rest =>
    let after := rest.dropWhile fun c => c != '\n' && c != '\r'
    let comment := rest.takeWhile fun c => c != '\n' && c != '\r'
    if comment.any isControl then none else some after
  | _ => some cs

/-- Blanks, comments and line breaks. -/
def skipLines? : Nat → List Char → Option (List Char)
  | 0, cs => some cs
  | fuel + 1, cs => do
    let cs ← skipComment? (skipBlanks cs)
    match lineBreak? cs with
    | some rest => skipLines? fuel rest
    | none => some cs

/-- Blanks, comments and line breaks, as far as they go. -/
def skipAll? (cs : List Char) : Option (List Char) := skipLines? (cs.length + 1) cs

/-- The end of a line, with a comment before it. -/
def endLine? (cs : List Char) : Option (List Char) := do
  let cs ← skipComment? (skipBlanks cs)
  if cs.isEmpty then some [] else lineBreak? cs

/-! ### Texts -/

/-- The character that hexadecimal digits stand for. -/
def hexChar? (digits : List Char) : Option Char := do
  let n ← digits.foldl (fun n c => n.bind fun n => (hexValue? c).map (16 * n + ·)) (some 0)
  if n < 0xD800 ∨ (0xDFFF < n ∧ n < 0x110000) then some (Char.ofNat n) else none

/-- Number of the hexadecimal digits after a letter. -/
def hexLength? : Char → Option Nat
  | 'x' => some 2
  | 'u' => some 4
  | 'U' => some 8
  | _ => none

/-- The character that a letter after a backslash stands for. -/
def escaped? : Char → Option Char
  | 'b' => some (Char.ofNat 8)
  | 't' => some '\t'
  | 'n' => some '\n'
  | 'f' => some (Char.ofNat 12)
  | 'r' => some '\r'
  | 'e' => some (Char.ofNat 27)
  | '"' => some '"'
  | '\\' => some '\\'
  | _ => none

/-- An escape after its backslash, and what follows it. -/
def escape? : List Char → Option (Char × List Char)
  | [] => none
  | c :: rest =>
    match hexLength? c with
    | some n =>
      if rest.length < n then none else (hexChar? (rest.take n)).map fun x => (x, rest.drop n)
    | none => (escaped? c).map fun x => (x, rest)

/-- The rest of a text on one line, after its opening quote. -/
def lineText? (quote : Char) : Nat → List Char → Option (List Char × List Char)
  | 0, _ => none
  | _, [] => none
  | fuel + 1, c :: rest =>
    if c = quote then some ([], rest)
    else if c = '\\' ∧ quote = '"' then do
      let (x, rest) ← escape? rest
      let (chars, rest) ← lineText? quote fuel rest
      pure (x :: chars, rest)
    else if isControl c then none
    else (lineText? quote fuel rest).map fun (chars, rest) => (c :: chars, rest)

/-- Blanks and line breaks, after a backslash at the end of a line. -/
def skipFolded : List Char → List Char
  | ' ' :: rest => skipFolded rest
  | '\t' :: rest => skipFolded rest
  | '\n' :: rest => skipFolded rest
  | '\r' :: '\n' :: rest => skipFolded rest
  | rest => rest

/-- A backslash that ends a line. -/
def endsLine (cs : List Char) : Bool := (lineBreak? (skipBlanks cs)).isSome

/-- The rest of a text over several lines, after its opening quotes. -/
def linesText? (quote : Char) : Nat → List Char → Option (List Char × List Char)
  | 0, _ => none
  | _, [] => none
  | fuel + 1, c :: rest =>
    if [quote, quote].isPrefixOf rest ∧ c = quote then
      let after := rest.drop 2
      let extra := (after.take 2).takeWhile (· == quote)
      some (extra, after.drop extra.length)
    else if c = '\\' ∧ quote = '"' then
      if endsLine rest then linesText? quote fuel (skipFolded rest)
      else do
        let (x, rest) ← escape? rest
        let (chars, rest) ← linesText? quote fuel rest
        pure (x :: chars, rest)
    else
      if isControl c && (lineBreak? (c :: rest)).isNone then none
      else (linesText? quote fuel rest).map fun (chars, rest) => (c :: chars, rest)

/-- A text in quotes. -/
def text? (several : Bool) (cs : List Char) : Option (String × List Char) :=
  match cs with
  | c :: rest =>
    if c = '"' ∨ c = '\'' then
      let read :=
        if several ∧ [c, c].isPrefixOf rest then
          let inner := rest.drop 2
          linesText? c (cs.length + 1) ((lineBreak? inner).getD inner)
        else lineText? c (cs.length + 1) rest
      read.map fun (chars, rest) => (String.ofList chars, rest)
    else none
  | [] => none

/-! ### Keys -/

/-- A character of a key without quotes. -/
def isKeyChar (c : Char) : Bool := c.isAlphanum || c == '_' || c == '-'

/-- One part of a key. -/
def keyPart? (cs : List Char) : Option (String × List Char) :=
  match text? false cs with
  | some read => some read
  | none =>
    let part := cs.takeWhile isKeyChar
    if part.isEmpty then none else some (String.ofList part, cs.drop part.length)

/-- The greatest number of levels of a value, and of parts of a key. -/
def maxLevels : Nat := 80

/-- At most some number of parts of a key, with dots between them, and what follows after blanks. -/
def keyParts? : Nat → List Char → Option (List String × List Char)
  | 0, _ => none
  | most + 1, cs => do
    let (part, rest) ← keyPart? (skipBlanks cs)
    match skipBlanks rest with
    | '.' :: rest =>
      let (parts, rest) ← keyParts? most rest
      pure (part :: parts, rest)
    | rest => pure ([part], rest)

/-- A key, and what follows after blanks. -/
def key? (cs : List Char) : Option (List String × List Char) := keyParts? maxLevels cs

/-! ### Numbers and dates -/

/-- Digits with underscores between them. -/
def isDigitRun (isDigit : Char → Bool) (cs : List Char) : Bool :=
  let runs := splitOn (· == '_') cs
  runs.all fun run => !run.isEmpty && run.all isDigit

/-- Without the underscores. -/
def plainDigits (cs : List Char) : List Char := cs.filter (· != '_')

/-- Decimal digits without a zero in front. -/
def isWhole (cs : List Char) : Bool :=
  isDigitRun Char.isDigit cs && (cs.length == 1 || cs.head? != some '0')

/-- The whole number that digits of a base write. -/
def natOfBase (base : Nat) (digits : List Char) : Nat :=
  digits.foldl (fun n c => base * n + (hexValue? c).getD 0) 0

/-- A whole number that 128 bits hold, with a sign or without one. -/
def whole? (n : Int) : Option Toml :=
  if -Int.pow 2 127 ≤ n ∧ n < Int.pow 2 128 then some (.whole n) else none

/-- A whole number with its base announced. -/
def based? (base : Nat) (cs : List Char) : Option Toml :=
  if isDigitRun (fun c => (hexValue? c).any (· < base)) cs then
    whole? (natOfBase base (plainDigits cs))
  else none

/-- An exponent with an optional sign. -/
def isExponent (cs : List Char) : Bool := isDigitRun Char.isDigit (spanSign cs).2

/-- A decimal number with a fraction or an exponent, without its sign. -/
def isReal (cs : List Char) : Bool :=
  let head := cs.takeWhile fun c => c.isDigit || c == '_'
  let rest := cs.drop head.length
  isWhole head &&
    match rest with
    | '.' :: rest =>
      let fraction := rest.takeWhile fun c => c.isDigit || c == '_'
      isDigitRun Char.isDigit fraction &&
        match rest.drop fraction.length with
        | [] => true
        | c :: exponent => (c == 'e' || c == 'E') && isExponent exponent
    | c :: exponent => (c == 'e' || c == 'E') && isExponent exponent
    | [] => false

/-- A decimal number is not too great for a double. -/
def isBounded (cs : List Char) : Bool := (parseDecimal? (plainDigits cs)).any Binary64.isFinite

/-- A decimal number, with its sign. -/
def decimal? (cs : List Char) : Option Toml :=
  let (negative, digits) := spanSign cs
  if isWhole digits then
    let n := Int.ofNat (natOfDigits (plainDigits digits))
    whole? (if negative then -n else n)
  else if (isReal digits && isBounded digits) || digits == "inf".toList ||
      digits == "nan".toList then
    some (.real (String.ofList cs))
  else none

/-- Digits at fixed places: a zero in the pattern stands for a digit. -/
def matchesPattern : List Char → List Char → Option (List Char)
  | [], cs => some cs
  | '0' :: pattern, c :: cs => if c.isDigit then matchesPattern pattern cs else none
  | p :: pattern, c :: cs => if p = c then matchesPattern pattern cs else none
  | _ :: _, [] => none

/-- Two digits whose number is in a range. -/
def inRange (cs : List Char) (place low high : Nat) : Bool :=
  let n := natOfDigits ((cs.drop place).take 2)
  low ≤ n && n ≤ high

/-- Number of the days of a month. -/
def daysOfMonth (year month : Nat) : Nat :=
  if month = 2 then
    if year % 4 = 0 ∧ (year % 100 ≠ 0 ∨ year % 400 = 0) then 29 else 28
  else if [4, 6, 9, 11].contains month then 30
  else 31

/-- A date, and what follows it. -/
def date? (cs : List Char) : Option (List Char) := do
  let rest ← matchesPattern "0000-00-00".toList cs
  let year := natOfDigits (cs.take 4)
  let month := natOfDigits ((cs.drop 5).take 2)
  if inRange cs 5 1 12 && inRange cs 8 1 (daysOfMonth year month) then some rest else none

/-- A time of the day, and what follows it; the seconds may be missing. -/
def time? (cs : List Char) : Option (List Char) := do
  let rest ← matchesPattern "00:00".toList cs
  if !(inRange cs 0 0 23 && inRange cs 3 0 59) then none
  else
    match matchesPattern ":00".toList rest with
    | none => some rest
    | some after =>
      if !inRange rest 1 0 60 then none
      else
        match after with
        | '.' :: fraction =>
          if fraction.head?.any Char.isDigit then some (fraction.dropWhile Char.isDigit) else none
        | _ => some after

/-- The distance of a time zone, and what follows it. -/
def zone? : List Char → Option (List Char)
  | 'Z' :: rest => some rest
  | 'z' :: rest => some rest
  | c :: rest =>
    if c = '+' ∨ c = '-' then do
      let after ← matchesPattern "00:00".toList rest
      if inRange rest 0 0 23 && inRange rest 3 0 59 then some after else none
    else none
  | [] => none

/-- The characters between a date and a time. -/
def dateEnds : List Char := ['T', 't', ' ']

/-- A date, a time or both, and what follows. -/
def moment? (cs : List Char) : Option (List Char) :=
  match date? cs with
  | none => time? cs
  | some rest =>
    match rest with
    | c :: after =>
      if dateEnds.contains c then
        match time? after with
        | some ending => some ((zone? ending).getD ending)
        | none => if c = ' ' then some rest else none
      else some rest
    | [] => some []

/-- A character of a value without quotes. -/
def isScalarChar (c : Char) : Bool :=
  c.isAlphanum || c == '_' || c == '+' || c == '-' || c == '.' || c == ':'

/-- A value without quotes and brackets, and what follows it. -/
def scalar? (cs : List Char) : Option (Toml × List Char) :=
  match moment? cs with
  | some rest => some (.moment (String.ofList (cs.take (cs.length - rest.length))), rest)
  | none =>
    let token := cs.takeWhile isScalarChar
    let v := match token with
      | '0' :: 'x' :: digits => based? 16 digits
      | '0' :: 'o' :: digits => based? 8 digits
      | '0' :: 'b' :: digits => based? 2 digits
      | _ =>
        if token = "true".toList then some (.bool true)
        else if token = "false".toList then some (.bool false)
        else decimal? token
    v.map fun v => (v, cs.drop token.length)

/-! ### Values -/

/-- Items up to a closing bracket, with commas between them and possibly after the last. -/
def sequence? {α : Type} (close : Char) (item : List Char → Option (α × List Char)) :
    Nat → List Char → Option (List α × List Char)
  | 0, _ => none
  | fuel + 1, cs => do
    let cs ← skipAll? cs
    if cs.head? = some close then pure ([], cs.tail)
    else
      let (a, rest) ← item cs
      match ← skipAll? rest with
      | ',' :: rest =>
        let (items, rest) ← sequence? close item fuel rest
        pure (a :: items, rest)
      | c :: rest => if c = close then pure ([a], rest) else none
      | [] => none

/-- An entry: a key, an equals sign and a value; `skip` passes over what may stand around the
sign. -/
def keyedValue? (skip : List Char → Option (List Char))
    (value : List Char → Option (Toml × List Char)) (cs : List Char) :
    Option ((List String × Toml) × List Char) := do
  let (path, rest) ← key? cs
  match ← skip rest with
  | '=' :: rest =>
    let (v, rest) ← value (← skip rest)
    pure ((path, v), rest)
  | _ => none

/-- A value with fewer levels than the first number, and what follows it. -/
def value? : Nat → List Char → Option (Toml × List Char)
  | 0, _ => none
  | levels + 1, cs =>
    match cs with
    | '[' :: rest => do
      let (items, rest) ← sequence? ']' (value? levels) (cs.length + 1) rest
      pure (.array items, rest)
    | '\x7b' :: rest => do
      let entry := keyedValue? skipAll? (value? levels)
      let (entries, rest) ← sequence? '\x7d' entry (cs.length + 1) rest
      pure (← ofEntries? entries, rest)
    | _ =>
      match text? true cs with
      | some (s, rest) => some (.text s, rest)
      | none => if cs.head?.any fun c => c == '"' || c == '\'' then none else scalar? cs

/-! ### Documents -/

/-- A header or an entry, and the lines after it. -/
def line? (cs : List Char) : Option (Line × List Char) :=
  match cs with
  | '[' :: '[' :: rest => do
    let (path, rest) ← key? rest
    match rest with
    | ']' :: ']' :: rest => pure (.listHeader path, ← endLine? rest)
    | _ => none
  | '[' :: rest => do
    let (path, rest) ← key? rest
    match rest with
    | ']' :: rest => pure (.header path, ← endLine? rest)
    | _ => none
  | _ => do
    let skip (cs : List Char) : Option (List Char) := some (skipBlanks cs)
    let ((path, v), rest) ← keyedValue? skip (value? (maxLevels + 1)) cs
    pure (.entry path v, ← endLine? rest)

/-- The headers and entries of a document. -/
def lines? : Nat → List Char → Option (List Line)
  | 0, _ => some []
  | fuel + 1, cs => do
    let cs ← skipAll? cs
    if cs.isEmpty then pure []
    else
      let (line, rest) ← line? cs
      pure (line :: (← lines? fuel rest))

/-- Reads a document, before which a byte order mark may stand. -/
def parse? (source : String) : Option Toml := do
  let cs := source.toList
  let cs := if cs.head?.any (·.toNat == 0xFEFF) then cs.tail else cs
  ofLines? (← lines? (cs.length + 1) cs)

/-! ### Readers -/

/-- A reader of documents. -/
structure Reader where
  parse? : String → Option Toml
  /-- What is said of a text that does not hold what was looked for. -/
  problem : String → String

/-- Reads documents by `parse?`, and says the same of every other text. -/
def Reader.standard : Reader := ⟨Toml.parse?, fun _ => "<toml error>"⟩

end ServiceScaffold.Toml
