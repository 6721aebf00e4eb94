import ServiceScaffold.Number.Decimal
import ServiceScaffold.Text.Case

/-!
# Patterns

Which texts are regular expressions (`isPattern`).  A pattern is the value of a field, so it holds
no closing brace; what would need one, like a counted repetition, is no pattern.  The boundaries of
words are those of all letters and cannot be used, but those of the letters of ASCII can.
-/

namespace ServiceScaffold.Log

open Text

/-- How a part of a pattern is read. -/
structure PatternMode where
  /-- Blanks and comments stand for nothing. -/
  isSpaced : Bool := false
  /-- Characters are those of all scripts, and else single bytes. -/
  isUnicode : Bool := true
  deriving DecidableEq, Repr, Inhabited

namespace PatternMode

/-- Passes over what stands for nothing: blanks, and comments to the end of their line. -/
def skip (mode : PatternMode) (cs : List Char) : List Char :=
  if mode.isSpaced then go false cs else cs
where
  /-- Passes over blanks, and over everything else inside a comment. -/
  go (inComment : Bool) : List Char → List Char
    | [] => []
    | c :: rest =>
      if inComment then go (c != '\n') rest
      else if isBlank c then go false rest
      else if c = '#' then go true rest
      else c :: rest

end PatternMode

/-! ### Escapes and classes -/

/-- What a part of a pattern stands for. -/
inductive PatternAtom where
  | character (code : Nat)
  /-- One of several characters. -/
  | oneOf
  /-- A place between characters. -/
  | place
  deriving DecidableEq, Repr, Inhabited

/-- A character by a number of `width` hexadecimal digits; a number of two digits is a single byte
if characters are bytes, and may then only be one of ASCII. -/
def numberedAtom? (mode : PatternMode) (width : Nat) (cs : List Char) :
    Option (PatternAtom × List Char) :=
  let digits := cs.take width
  if digits.length < width || digits.any fun c => (Number.hexValue? c).isNone then none
  else
    let n := digits.foldl (fun n c => 16 * n + (Number.hexValue? c).getD 0) 0
    if !n.isValidChar || (!mode.isUnicode && width = 2 && 128 ≤ n) then none
    else some (.character n, cs.drop width)

/-- The letters of the classes of characters that have a name of one letter. -/
def categoryLetters : List Char := "clmnpszCLMNPSZ".toList

/-- The number of the character that a letter after a backslash stands for. -/
def controlCode? : Char → Option Nat
  | 'a' => some 7
  | 't' => some 9
  | 'n' => some 10
  | 'v' => some 11
  | 'f' => some 12
  | 'r' => some 13
  | _ => none

/-- Reads what follows a backslash. -/
def escapedAtom? (mode : PatternMode) : List Char → Option (PatternAtom × List Char)
  | [] => none
  | c :: rest =>
    if c = 'x' then numberedAtom? mode 2 rest
    else if c = 'u' then numberedAtom? mode 4 rest
    else if c = 'U' then numberedAtom? mode 8 rest
    else if c = 'p' ∨ c = 'P' then
      match rest with
      | d :: rest =>
        if mode.isUnicode && categoryLetters.contains d then some (.oneOf, rest) else none
      | [] => none
    else if "dsw".toList.contains c then some (.oneOf, rest)
    else if "DSW".toList.contains c then if mode.isUnicode then some (.oneOf, rest) else none
    else if "Az".toList.contains c then some (.place, rest)
    else if "bB<>".toList.contains c then if mode.isUnicode then none else some (.place, rest)
    else
      match controlCode? c with
      | some n => some (.character n, rest)
      | none =>
        if c.isAlphanum || c = '%' || 128 ≤ c.toNat then none else some (.character c.toNat, rest)

/-- The names of the classes of characters of ASCII. -/
def classNames : List String :=
  ["alnum", "alpha", "ascii", "blank", "cntrl", "digit", "graph", "lower", "print", "punct",
    "space", "upper", "word", "xdigit"]

/-- The rest after the name of a class between colons, which may be negated, and a bracket. -/
def namedClass? (cs : List Char) : Option (List Char) :=
  match cs with
  | ':' :: rest =>
    let rest := if rest.head? = some '^' then rest.drop 1 else rest
    let name := rest.takeWhile (· != ':')
    match rest.dropWhile (· != ':') with
    | ':' :: ']' :: rest => if classNames.contains (String.ofList name) then some rest else none
    | _ => none
  | _ => none

/-- The rest after hyphens at the start of a class, which stand for themselves. -/
def leadingHyphens (mode : PatternMode) : List Char → List Char
  | [] => []
  | c :: rest => if isBlank c && mode.isSpaced then leadingHyphens mode rest
    else if c = '-' then leadingHyphens mode rest
    else c :: rest

/-- The rest after the opening bracket of a class with what may only stand at its start: a sign of
negation, hyphens, and else a closing bracket that stands for itself. -/
def classStart? (mode : PatternMode) (cs : List Char) : Option (List Char) :=
  let cs := mode.skip cs
  let isNegated := cs.head? = some '^'
  if isNegated && !mode.isUnicode then none
  else
    let cs := if isNegated then mode.skip (cs.drop 1) else cs
    let rest := if cs.head? = some '-' then mode.skip (leadingHyphens mode cs)
      else if cs.head? = some ']' then mode.skip (cs.drop 1)
      else cs
    if rest.isEmpty then none else some rest

/-- Reads a character of a class, or an escape. -/
def classAtom? (mode : PatternMode) : List Char → Option (PatternAtom × List Char)
  | [] => none
  | '\\' :: rest => escapedAtom? mode rest
  | c :: rest =>
    if !mode.isUnicode && 128 ≤ c.toNat then none else some (.character c.toNat, rest)

/-- The rest after an item of a class or a range between two characters, of which the first does not
come after the second. -/
def classItem? (mode : PatternMode) (cs : List Char) : Option (List Char) := do
  let (first, rest) ← classAtom? mode cs
  let rest := mode.skip rest
  let following := (mode.skip (rest.drop 1)).head?
  if rest.head? != some '-' || following == some ']' || following == some '-' then
    if first = .place then none else some rest
  else
    match first, ← classAtom? mode (mode.skip (rest.drop 1)) with
    | .character low, (.character high, rest) => if low ≤ high then some rest else none
    | _, _ => none

/-- The operators between the parts of a class. -/
def classOperators : List (List Char) := ["&&".toList, "--".toList, "~~".toList]

/-- The rest after a class of which `depth` brackets are open. -/
def classTail? (mode : PatternMode) : Nat → Nat → List Char → Option (List Char)
  | 0, _, _ => none
  | fuel + 1, depth, cs =>
    match mode.skip cs with
    | [] => none
    | '[' :: rest =>
      match namedClass? rest with
      | some rest => classTail? mode fuel depth rest
      | none => (classStart? mode rest).bind (classTail? mode fuel (depth + 1))
    | ']' :: rest => if depth = 1 then some rest else classTail? mode fuel (depth - 1) rest
    | cs =>
      match classOperators.findSome? (·.isPrefixOf? cs) with
      | some rest => classTail? mode fuel depth rest
      | none => (classItem? mode cs).bind (classTail? mode fuel depth)

/-- The rest after a class, after its opening bracket. -/
def class? (mode : PatternMode) (cs : List Char) : Option (List Char) :=
  (classStart? mode cs).bind (classTail? mode cs.length 1)

/-! ### Groups -/

/-- Reads letters that change how the rest of a group is read, each of them at most once and those
after a hyphen in the other direction, up to a colon or a closing bracket. -/
def changedMode? (mode : PatternMode) :
    List Char → List Char → Option (PatternMode × List Char × List Char)
  | _, [] => none
  | seen, c :: rest =>
    if c = ':' ∨ c = ')' then
      if seen.head? = some '-' then none else some (mode, seen, c :: rest)
    else if !"imsuURx-".toList.contains c || seen.contains c then none
    else
      let positive := !seen.contains '-'
      let mode :=
        if c = 'x' then { mode with isSpaced := positive }
        else if c = 'u' then { mode with isUnicode := positive }
        else mode
      changedMode? mode (c :: seen) rest

/-- The character may stand in the name of a group, the first of which is no digit. -/
def isGroupNameChar (isFirst : Bool) (c : Char) : Bool :=
  c == '_' || (if isFirst then isWordChar c && !c.isDigit else isWordChar c || ".[]".contains c)

/-- Reads the name of a group up to its closing bracket. -/
def groupName? (cs : List Char) : Option (List Char × List Char) :=
  let name := cs.takeWhile (· != '>')
  match name, cs.dropWhile (· != '>') with
  | c :: more, '>' :: rest =>
    if isGroupNameChar true c && more.all (isGroupNameChar false) then some (name, rest) else none
  | _, _ => none

/-- What is being read of a pattern. -/
structure PatternReading where
  mode : PatternMode
  /-- The names of the groups up to now. -/
  names : List (List Char)
  /-- There is something before that can be repeated. -/
  repeats : Bool
  rest : List Char
  deriving Inhabited

/-- Reads the start of a group, after its opening bracket, or a change of how the group around is
read; then it is no group. -/
def group? (r : PatternReading) (cs : List Char) : Option (Bool × PatternReading) :=
  let named (cs : List Char) : Option (Bool × PatternReading) := do
    let (name, rest) ← groupName? cs
    if r.names.contains name then none
    else some (true, { r with names := name :: r.names, repeats := false, rest })
  match r.mode.skip cs with
  | '?' :: '=' :: _ => none
  | '?' :: '!' :: _ => none
  | '?' :: '<' :: '=' :: _ => none
  | '?' :: '<' :: '!' :: _ => none
  | '?' :: 'P' :: '<' :: rest => named rest
  | '?' :: '<' :: rest => named rest
  | '?' :: rest =>
    match changedMode? r.mode [] rest with
    | some (mode, _, ':' :: rest) => some (true, { r with mode, repeats := false, rest })
    | some (mode, seen, _ :: rest) =>
      if seen.isEmpty then none else some (false, { r with mode, repeats := false, rest })
    | _ => none
  | rest => some (true, { r with repeats := false, rest })

/-! ### Patterns -/

/-- The rest of a pattern fits; `outer` holds how the groups around are read. -/
def fits : Nat → List PatternMode → PatternReading → Bool
  | 0, _, _ => false
  | fuel + 1, outer, r =>
    let goesOn (rest : List Char) : Bool := fits fuel outer { r with repeats := true, rest }
    match r.mode.skip r.rest with
    | [] => outer.isEmpty
    | c :: rest =>
      if c = '(' then
        match group? r rest with
        | some (true, inner) => fits fuel (r.mode :: outer) inner
        | some (false, changed) => fits fuel outer changed
        | none => false
      else if c = ')' then
        match outer with
        | mode :: outer => fits fuel outer { r with mode, repeats := true, rest }
        | [] => false
      else if c = '|' then fits fuel outer { r with repeats := false, rest }
      else if c = '[' then (class? r.mode rest).any goesOn
      else if c = '?' ∨ c = '*' ∨ c = '+' then
        r.repeats && goesOn (if rest.head? = some '?' then rest.drop 1 else rest)
      else if c = '{' then false
      else if c = '\\' then (escapedAtom? r.mode rest).any fun (_, rest) => goesOn rest
      else if c = '.' then r.mode.isUnicode && goesOn rest
      else goesOn rest

/-- The text is a regular expression. -/
def isPattern (cs : List Char) : Bool := fits (cs.length + 1) [] ⟨{}, [], false, cs⟩

end ServiceScaffold.Log
