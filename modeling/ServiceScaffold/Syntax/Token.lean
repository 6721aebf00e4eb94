import ServiceScaffold.Syntax.Node
import ServiceScaffold.Number.Decimal

/-!
# Tokens of TypeScript

Blanks, comments and tokens at the start of a text.  Every function returns what it read together
with the rest of the text.
-/

namespace ServiceScaffold.Syntax

open Number

/-- A space, tab or line break of ASCII. -/
def isAsciiSpace (c : Char) : Bool := c == ' ' || (9 ≤ c.toNat && c.toNat ≤ 13)

/-- A blank between tokens. -/
def isSpace (c : Char) : Bool :=
  let n := c.toNat
  isAsciiSpace c || n == 0xa0 || n == 0x1680 || (0x2000 ≤ n && n ≤ 0x200b) || n == 0x2028 ||
    n == 0x2029 || n == 0x202f || n == 0x205f || n == 0x2060 || n == 0x3000 || n == 0xfeff

/-- A character that belongs to a name. -/
def isNameChar (c : Char) : Bool :=
  32 ≤ c.toNat && !isSpace c && !":;`\"'@#.,|^&<=>+-*/\\%?!~()[]\x7b\x7d".toList.contains c

/-- A character that starts a name. -/
def isNameStart (c : Char) : Bool := isNameChar c && !c.isDigit

/-- A token, with its text where it is not fixed. -/
inductive Token where
  | word (name : List Char)
  | privateName
  | number
  | string
  /-- The back quote that opens a template. -/
  | backQuote
  | mark (text : List Char)
  /-- A character that starts no token. -/
  | stray
  | finish
  deriving DecidableEq, Repr, Inhabited

/-- The end of a line ends a comment of one line. -/
def isLineEnd (c : Char) : Bool :=
  c == '\n' || c == '\r' || c.toNat == 0x2028 || c.toNat == 0x2029

/-- The rest after the closer of a block comment. -/
def blockCommentTail? : List Char → Option (List Char)
  | [] => none
  | '*' :: '/' :: rest => some rest
  | _ :: rest => blockCommentTail? rest

/-- The rest after a comment at the start of a text. -/
def comment? : List Char → Option (List Char)
  | '/' :: '/' :: rest => some (rest.dropWhile (!isLineEnd ·))
  | '/' :: '*' :: rest => blockCommentTail? rest
  | _ => none

/-- Escape of a name by a character number, and the rest. -/
def nameEscape? : List Char → Option (List Char × List Char)
  | '\\' :: 'u' :: '{' :: rest =>
    let digits := rest.takeWhile fun c => (hexValue? c).isSome
    match rest.dropWhile fun c => (hexValue? c).isSome with
    | '}' :: rest =>
      if digits.isEmpty then none else some ("\\u\x7b".toList ++ digits ++ ['}'], rest)
    | _ => none
  | '\\' :: 'u' :: a :: b :: c :: d :: rest =>
    if [a, b, c, d].all fun c => (hexValue? c).isSome then some (['\\', 'u', a, b, c, d], rest)
    else none
  | _ => none

/-- The further characters of a name. -/
def nameTail : Nat → List Char → List Char × List Char
  | 0, cs => ([], cs)
  | _ + 1, [] => ([], [])
  | fuel + 1, c :: cs =>
    if isNameChar c then
      let (name, rest) := nameTail fuel cs
      (c :: name, rest)
    else match nameEscape? (c :: cs) with
      | some (escape, rest) =>
        let (name, rest) := nameTail fuel rest
        (escape ++ name, rest)
      | none => ([], c :: cs)

/-- A name at the start of a text. -/
def name? : List Char → Option (List Char × List Char)
  | [] => none
  | c :: cs =>
    if isNameStart c || (nameEscape? (c :: cs)).isSome then
      some (nameTail (cs.length + 1) (c :: cs))
    else none

/-- Digits that satisfy `p`, with single underscores between them; `after` says that a digit has
been read. -/
def digitRun (p : Char → Bool) (after : Bool) : List Char → List Char
  | [] => []
  | c :: cs =>
    if p c then digitRun p true cs
    else match c, cs with
      | '_', d :: rest => if after && p d then digitRun p true rest else c :: cs
      | _, _ => c :: cs

/-- The rest after a run of decimal digits, none if there is no digit. -/
def decimalRun? (cs : List Char) : Option (List Char) :=
  match cs with
  | c :: _ => if c.isDigit then some (digitRun Char.isDigit false cs) else none
  | [] => none

/-- The rest after an exponent, if there is one. -/
def exponentTail (cs : List Char) : List Char :=
  match cs with
  | c :: rest =>
    if c = 'e' ∨ c = 'E' then (decimalRun? (spanSign rest).2).getD cs else cs
  | [] => []

/-- The mark of a big integer, if it is there. -/
def bigTail : List Char → List Char
  | 'n' :: rest => rest
  | rest => rest

/-- The rest after digits of a base. -/
def baseRun? (p : Char → Bool) (cs : List Char) : Option (List Char) :=
  match cs with
  | c :: _ => if p c then some (bigTail (digitRun p false cs)) else none
  | [] => none

/-- The rest after a number at the start of a text. -/
def number? (cs : List Char) : Option (List Char) :=
  let based := match cs with
    | '0' :: x :: rest =>
      if x = 'x' ∨ x = 'X' then baseRun? (fun c => (hexValue? c).isSome) rest
      else if x = 'o' ∨ x = 'O' then baseRun? (fun c => '0' ≤ c && c ≤ '7') rest
      else if x = 'b' ∨ x = 'B' then baseRun? (fun c => c == '0' || c == '1') rest
      else none
    | _ => none
  based.orElse fun _ =>
    match cs with
    | '.' :: rest => (decimalRun? rest).map exponentTail
    | _ => (decimalRun? cs).map fun rest =>
      match rest with
      | '.' :: more => exponentTail ((decimalRun? more).getD more)
      | 'n' :: more => more
      | _ => exponentTail rest

/-- `n` hexadecimal digits stand at the start. -/
def startsWithHex (n : Nat) (cs : List Char) : Bool :=
  (cs.take n).length == n && (cs.take n).all fun c => (hexValue? c).isSome

/-- What follows a backslash is an escape. -/
def isEscape : List Char → Bool
  | [] => false
  | 'x' :: rest => startsWithHex 2 rest
  | 'u' :: '{' :: rest =>
    let tail := rest.dropWhile fun c => (hexValue? c).isSome
    tail.length < rest.length && tail.head? == some '}'
  | 'u' :: rest => startsWithHex 4 rest
  | _ => true

/-- A line feed or a separator, which may follow a carriage return in an escape. -/
def isNewLine (c : Char) : Bool := c == '\n' || c.toNat == 0x2028 || c.toNat == 0x2029

/-- The rest after the closing quote of a text. -/
def stringTail? (quote : Char) : List Char → Option (List Char)
  | [] => none
  | '\\' :: c :: d :: rest =>
    if (c = '\r' ∨ c = '?') ∧ isNewLine d then stringTail? quote rest
    else if isEscape (c :: d :: rest) then stringTail? quote (d :: rest)
    else none
  | c :: rest =>
    if c = quote then some rest
    else if c = '\n' ∨ c = '\r' ∨ c = '\\' then none
    else stringTail? quote rest

/-- The rest after a regular expression with its flags; `inClass` says that a bracket is open. -/
def regexTail? (inClass : Bool) : List Char → Option (List Char)
  | [] => none
  | '\\' :: c :: rest => if isLineEnd c then none else regexTail? inClass rest
  | c :: rest =>
    if isLineEnd c then none
    else if c = '[' then regexTail? true rest
    else if c = ']' then regexTail? false rest
    else if c = '/' && !inClass then some (rest.dropWhile Char.isAlpha)
    else regexTail? inClass rest

/-- Marks of several characters, longer ones first.  Angle brackets that close are always read one
by one. -/
def longMarks : List (List Char) :=
  ["...", "===", "!==", "**=", "<<=", "&&=", "||=", "??=", "=>", "==", "!=", "<=", "&&", "||", "??",
    "++", "--", "+=", "-=", "*=", "/=", "%=", "&=", "|=", "^=", "**"].map String.toList

/-- Marks of one character. -/
def shortMarks : List Char := "\x7b\x7d()[];,<>+-*/%&|^!~?:=.@".toList

/-- The token at the start of a text, and the rest. -/
def Token.ofText (cs : List Char) : Token × List Char :=
  match cs with
  | [] => (.finish, [])
  | c :: rest =>
    match name? cs with
    | some (name, rest) => (.word name, rest)
    | none =>
      match number? cs with
      | some rest => (.number, rest)
      | none =>
        if c = '"' ∨ c = '\'' then
          match stringTail? c rest with
          | some rest => (.string, rest)
          | none => (.stray, rest)
        else if c = '`' then (.backQuote, rest)
        else if c = '#' then
          match name? rest with
          | some (_, rest) => (.privateName, rest)
          | none => (.stray, rest)
        else if c = '?' ∧ rest.head? = some '.' ∧ !(rest.drop 1).head?.any Char.isDigit then
          (.mark ['?', '.'], rest.drop 1)
        else
          match longMarks.find? (·.isPrefixOf cs) with
          | some found => (.mark found, cs.drop found.length)
          | none => if shortMarks.contains c then (.mark [c], rest) else (.stray, rest)

/-- The rest after the text of a template: it starts with the closing quote or a substitution. -/
def templateTail : List Char → List Char
  | [] => []
  | '\\' :: _ :: rest => templateTail rest
  | c :: rest =>
    if c = '`' then c :: rest
    else if c = '$' ∧ rest.head? = some '\x7b' then c :: rest
    else templateTail rest

/-! ### The end of a statement without a semicolon -/

/-- A text starts with `in` or `instanceof` as far as the end of a statement is concerned: the
letters are not followed by another letter. -/
def startsWithIn : List Char → Bool
  | 'i' :: 'n' :: rest =>
    match rest with
    | [] => true
    | c :: _ =>
      if !c.isAlpha then true
      else match "stanceof".toList.isPrefixOf? rest with
        | some (c :: _) => !c.isAlpha
        | some [] => true
        | none => false
  | _ => false

/-- What stands on a new line ends the statement before it. -/
def endsBeforeLine (inExpression : Bool) : List Char → Bool
  | [] => true
  | c :: rest =>
    if "`,.;*%><=?^|&/:".toList.contains c then false
    else if c = '(' ∨ c = '[' then !inExpression
    else if c = '+' ∨ c = '-' then rest.head? == some c
    else if c = '!' then rest.head? != some '='
    else !startsWithIn (c :: rest)

/-- A closing brace ends the statement before it, unless a colon follows the brace. -/
def endsBeforeBrace (inExpression : Bool) (afterBrace : List Char) : Bool :=
  if (afterBrace.dropWhile isAsciiSpace).head? = some ':' then inExpression else true

end ServiceScaffold.Syntax
