import ServiceScaffold.Json.Basic
import ServiceScaffold.Json.Shape
import ServiceScaffold.Number.Decimal

/-!
# Reading JSON

`Json.parse?` reads a whole text as one value.  A number without point and exponent is whole as
long as it fits into 64 bits; every other number is read as a significand of at most 64 bits that
is scaled by powers of ten.  `Json.parseAs?` reads a text of which only parts are of use: what is
left out has to keep to the notation, but its numbers and texts need not stand for anything.
-/

namespace ServiceScaffold.Json

open Number

/-- The text after the blanks that may stand between tokens. -/
def skipSpace (cs : List Char) : List Char :=
  cs.dropWhile fun c => c == ' ' || c == '\n' || c == '\r' || c == '\t'

/-- The number that four hexadecimal digits write. -/
def hex4Value? (a b c d : Char) : Option Nat := do
  let a ← hexValue? a
  let b ← hexValue? b
  let c ← hexValue? c
  let d ← hexValue? d
  pure (((a * 16 + b) * 16 + c) * 16 + d)

/-- The character that a letter after a backslash stands for. -/
def unescape? (c : Char) : Option Char :=
  match c with
  | '"' => some '"'
  | '\\' => some '\\'
  | '/' => some '/'
  | 'b' => some (Char.ofNat 8)
  | 'f' => some (Char.ofNat 12)
  | 'n' => some '\n'
  | 'r' => some '\r'
  | 't' => some '\t'
  | _ => none

/-- The unit is the first half of a pair. -/
def isHighHalf (n : Nat) : Bool := 0xD800 ≤ n && n < 0xDC00

/-- The unit is the second half of a pair. -/
def isLowHalf (n : Nat) : Bool := 0xDC00 ≤ n && n < 0xE000

/-- The rest of a quoted text, after its opening quote; `done` holds what was read, in reverse. -/
def stringTail? : List Char → List Char → Option (String × List Char)
  | _, [] => none
  | done, '"' :: rest => some (String.ofList done.reverse, rest)
  | done, '\\' :: 'u' :: a :: b :: c :: d :: rest =>
    match hex4Value? a b c d with
    | none => none
    | some n =>
      if isHighHalf n then
        match rest with
        | '\\' :: 'u' :: a' :: b' :: c' :: d' :: rest' =>
          match hex4Value? a' b' c' d' with
          | none => none
          | some m =>
            if isLowHalf m then
              stringTail? (Char.ofNat (0x10000 + (n - 0xD800) * 0x400 + (m - 0xDC00)) :: done) rest'
            else none
        | _ => none
      else if isLowHalf n then none
      else stringTail? (Char.ofNat n :: done) rest
  | done, '\\' :: c :: rest =>
    match unescape? c with
    | some image => stringTail? (image :: done) rest
    | none => none
  | done, c :: rest => if c.toNat < 32 ∨ c = '\\' then none else stringTail? (c :: done) rest

/-- What follows a quoted text, after its opening quote, in which halves of pairs may stand
alone. -/
def skipString? : List Char → Option (List Char)
  | [] => none
  | '"' :: rest => some rest
  | '\\' :: 'u' :: a :: b :: c :: d :: rest =>
    if (hex4Value? a b c d).isSome then skipString? rest else none
  | '\\' :: c :: rest => if (unescape? c).isSome then skipString? rest else none
  | c :: rest => if c.toNat < 32 ∨ c = '\\' then none else skipString? rest

/-- The greatest significand. -/
def maxSignificand : Nat := Nat.pow 2 64 - 1

/-- Reads digits into a significand as long as it has room; the digits left over are counted in
`dropped`. -/
def significand (full : Bool) (n dropped : Nat) : List Char → Nat × Nat
  | [] => (n, dropped)
  | c :: cs =>
    let next := 10 * n + digitValue c
    if full || maxSignificand < next then significand true n (dropped + 1) cs
    else significand false next dropped cs

/-- A product, rounded. -/
def product (x y : Binary64) : Binary64 :=
  Binary64.nearest false (x.quotient.1 * y.quotient.1) (x.quotient.2 * y.quotient.2)

/-- A quotient, rounded. -/
def ratio (x y : Binary64) : Binary64 :=
  Binary64.nearest false (x.quotient.1 * y.quotient.2) (x.quotient.2 * y.quotient.1)

/-- A power of ten. -/
def powerOfTen (n : Nat) : Binary64 := Binary64.nearest false (Nat.pow 10 n) 1

/-- The exponent of the greatest power of ten. -/
def maxPower : Nat := 308

/-- A number times ten to the power `e`, rounded at each step: as long as `e` is below the negative
of the greatest power, the number is divided by that power.  There is none if it is infinite. -/
def scale? : Nat → Binary64 → Int → Option Binary64
  | 0, x, _ => some x
  | steps + 1, x, e =>
    if e.natAbs ≤ maxPower then
      let y := if 0 ≤ e then product x (powerOfTen e.natAbs) else ratio x (powerOfTen e.natAbs)
      if y.isFinite then some y else none
    else if x.magnitude = 0 then some x
    else if 0 ≤ e then none
    else scale? steps (ratio x (powerOfTen maxPower)) (e + maxPower)

/-- A significand times ten to the power `e`.  A significand is zero after three divisions by the
greatest power of ten. -/
def scaled? (negative : Bool) (n : Nat) (e : Int) : Option Binary64 :=
  (scale? 4 (Binary64.ofInt n) e).map fun x => if negative then x.neg else x

/-- The digits of a fraction after its point; there must be one. -/
def fraction? : List Char → Option (List Char × List Char)
  | '.' :: cs =>
    let (digits, rest) := spanDigits cs
    if digits.isEmpty then none else some (digits, rest)
  | cs => some ([], cs)

/-- The exponent of a number, if one is written. -/
def exponent? : List Char → Option (Option Int × List Char)
  | [] => some (none, [])
  | c :: cs =>
    if c = 'e' ∨ c = 'E' then
      let (negative, body) := spanSign cs
      let (digits, rest) := spanDigits body
      if digits.isEmpty then none
      else
        let n := Int.ofNat (natOfDigits digits)
        some (some (if negative then -n else n), rest)
    else some (none, c :: cs)

/-- The parts of a number as it is written. -/
structure Numeral where
  negative : Bool
  whole : List Char
  fraction : List Char
  /-- The exponent, if one is written. -/
  exponent : Option Int

/-- Reads the parts of a number; no zero may stand before another digit. -/
def numeral? (cs : List Char) : Option (Numeral × List Char) := do
  let (negative, body) := match cs with
    | '-' :: body => (true, body)
    | _ => (false, cs)
  let (whole, rest) := spanDigits body
  if whole.isEmpty || (1 < whole.length && whole.head? == some '0') then none
  let (fraction, rest) ← fraction? rest
  let (exponent, rest) ← exponent? rest
  pure (⟨negative, whole, fraction, exponent⟩, rest)

/-- The value of a number.  A whole number that does not fit into 64 bits is a double, and so is a
negative zero; numbers that are too great have no value. -/
def Numeral.value? (n : Numeral) : Option Json :=
  let (whole, dropped) := significand false 0 0 n.whole
  if n.fraction.isEmpty && n.exponent.isNone && dropped = 0 && (!n.negative || whole ≠ 0) &&
      (!n.negative || whole ≤ Nat.pow 2 63) then
    some (.int (if n.negative then -whole else whole))
  else
    let (digits, droppedLater) := significand false whole 0 n.fraction
    let kept := n.fraction.length - droppedLater
    (scaled? n.negative digits (n.exponent.getD 0 + dropped - kept)).map .float

/-- The text after a fixed word. -/
def word? (word : String) (value : Json) (cs : List Char) : Option (Json × List Char) :=
  (word.toList.isPrefixOf? cs).map fun rest => (value, rest)

/-- Reads a quoted text after its opening quote. -/
def text? (shape : Shape) (cs : List Char) : Option (String × List Char) :=
  if shape.isUnused then (skipString? cs).map (("", ·)) else stringTail? [] cs

/-- Reads a number. -/
def number? (shape : Shape) (cs : List Char) : Option (Json × List Char) := do
  let (n, rest) ← numeral? cs
  if shape.isUnused then pure (.null, rest) else pure (← n.value?, rest)

mutual

/-- Reads one value at the start of the text. -/
def readValue? : Nat → Shape → List Char → Option (Json × List Char)
  | 0, _, _ => none
  | fuel + 1, shape, cs =>
    match skipSpace cs with
    | '"' :: rest => (text? shape rest).map fun (s, rest) => (.str s, rest)
    | '[' :: rest =>
      match skipSpace rest with
      | ']' :: rest => some (.arr [], rest)
      | rest => (readItems? fuel shape [] rest).map fun (items, rest) => (.arr items, rest)
    | '{' :: rest =>
      match skipSpace rest with
      | '}' :: rest => some (.obj [], rest)
      | rest => (readFields? fuel shape [] rest).map fun (fields, rest) => (.obj fields, rest)
    | 't' :: rest => word? "rue" (.bool true) rest
    | 'f' :: rest => word? "alse" (.bool false) rest
    | 'n' :: rest => word? "ull" .null rest
    | rest => number? shape rest

/-- Reads the items of an array up to its end; `done` holds those read, in reverse. -/
def readItems? : Nat → Shape → List Json → List Char → Option (List Json × List Char)
  | 0, _, _, _ => none
  | fuel + 1, shape, done, cs =>
    match readValue? fuel (shape.item done.length) cs with
    | none => none
    | some (v, rest) =>
      match skipSpace rest with
      | ',' :: rest => readItems? fuel shape (v :: done) rest
      | ']' :: rest => some ((v :: done).reverse, rest)
      | _ => none

/-- Reads the fields of an object up to its end, without those that are of no use; `done` holds
those read, in reverse. -/
def readFields? :
    Nat → Shape → List (String × Json) → List Char → Option (List (String × Json) × List Char)
  | 0, _, _, _ => none
  | fuel + 1, shape, done, cs =>
    match skipSpace cs with
    | '"' :: rest =>
      match text? shape rest with
      | none => none
      | some (key, rest) =>
        match skipSpace rest with
        | ':' :: rest =>
          match readValue? fuel (shape.field key) rest with
          | none => none
          | some (v, rest) =>
            let done := if (shape.field key).isUnused then done else (key, v) :: done
            match skipSpace rest with
            | ',' :: rest => readFields? fuel shape done rest
            | '}' :: rest => some (done.reverse, rest)
            | _ => none
        | _ => none
    | _ => none

end

/-- Reads a text that holds one value and nothing else, as far as a shape says that it is of use. -/
def parseAs? (shape : Shape) (text : String) : Option Json :=
  match readValue? (2 * text.length + 4) shape text.toList with
  | some (v, rest) => if (skipSpace rest).isEmpty then some v else none
  | none => none

/-- Reads a text that holds one value and nothing else. -/
def parse? (text : String) : Option Json := parseAs? .whole text

end ServiceScaffold.Json
