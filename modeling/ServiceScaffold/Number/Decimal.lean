import ServiceScaffold.Number.Shortest
import ServiceScaffold.Text.Case
import ServiceScaffold.Text.Blank

/-!
# Decimal texts of numbers

Reading a decimal text as the nearest double (`parseDecimal?`), and the two ways of writing a
double: with positions only (`plainText`), and with an exponent for those that are small or not
below `1e16` (`scientificText`).
-/

namespace ServiceScaffold.Number

open Text

/-- Value of a decimal digit. -/
def digitValue (c : Char) : Nat := c.toNat - '0'.toNat

/-- Value of a hexadecimal digit. -/
def hexValue? (c : Char) : Option Nat :=
  if c.isDigit then some (c.toNat - '0'.toNat)
  else if 'a' ≤ c ∧ c ≤ 'f' then some (c.toNat - 'a'.toNat + 10)
  else if 'A' ≤ c ∧ c ≤ 'F' then some (c.toNat - 'A'.toNat + 10)
  else none

/-- The whole number that decimal digits write. -/
def natOfDigits (digits : List Char) : Nat :=
  digits.foldl (fun n c => 10 * n + digitValue c) 0

/-- The decimal digits of a whole number. -/
def digitsOf (n : Nat) : List Char := Nat.toDigits 10 n

/-- The decimal text of an integer. -/
def intText (n : Int) : List Char :=
  if n < 0 then '-' :: digitsOf n.natAbs else digitsOf n.natAbs

/-- The digits at the start of a text and what follows them. -/
def spanDigits (cs : List Char) : List Char × List Char :=
  (cs.takeWhile Char.isDigit, cs.dropWhile Char.isDigit)

/-- The double nearest to `digits · 10 ^ exponent`.  Exponents out of reach of every double are
settled before any power is computed. -/
def scaledDecimal (negative : Bool) (digits : List Char) (exponent : Int) : Binary64 :=
  let significant := digits.dropWhile (· == '0')
  let top := exponent + significant.length
  if significant.isEmpty || top < -400 then Binary64.ofPattern negative 0
  else if 400 < top then Binary64.ofPattern negative Binary64.infinityPattern
  else if 0 ≤ exponent then
    Binary64.nearest negative (natOfDigits significant * Nat.pow 10 exponent.toNat) 1
  else Binary64.nearest negative (natOfDigits significant) (Nat.pow 10 (-exponent).toNat)

/-- A sign at the start, if there is one, and the rest. -/
def spanSign : List Char → Bool × List Char
  | '-' :: cs => (true, cs)
  | '+' :: cs => (false, cs)
  | cs => (false, cs)

/-- An exponent part that is the whole text: nothing, or `e`, an optional sign and digits. -/
def parseExponent? : List Char → Option Int
  | [] => some 0
  | c :: cs =>
    if c = 'e' ∨ c = 'E' then
      let (negative, rest) := spanSign cs
      if !rest.isEmpty && rest.all Char.isDigit then
        let n := Int.ofNat (natOfDigits rest)
        some (if negative then -n else n)
      else none
    else none

/-- The double nearest to a decimal text: an optional sign, digits with at most one point among or
around them, an optional exponent; or a name of infinity or of the missing number. -/
def parseDecimal? (cs : List Char) : Option Binary64 :=
  let (negative, body) := spanSign cs
  let name := body.map Char.toLower
  if name = "inf".toList ∨ name = "infinity".toList then
    some (Binary64.ofPattern negative Binary64.infinityPattern)
  else if name = "nan".toList then
    some (Binary64.ofPattern negative (Binary64.infinityPattern + Nat.pow 2 51))
  else
    let (whole, rest) := spanDigits body
    let (fraction, tail) := match rest with
      | '.' :: more => spanDigits more
      | _ => ([], rest)
    if whole.isEmpty && fraction.isEmpty then none
    else (parseExponent? tail).map fun e =>
      scaledDecimal negative (whole ++ fraction) (e - Int.ofNat fraction.length)

/-- `n` zeros. -/
def zeros (n : Nat) : List Char := List.replicate n '0'

/-- The sign of a number that is written. -/
def signText (x : Binary64) : List Char := if x.isNegative then ['-'] else []

/-- Digits `ds` scaled by `10 ^ k`, without an exponent and without a point if none is needed. -/
def positional (ds : List Char) (k : Int) : List Char :=
  if 0 ≤ k then ds ++ zeros k.toNat
  else
    let places := (-k).toNat
    if places < ds.length then
      ds.take (ds.length - places) ++ '.' :: ds.drop (ds.length - places)
    else "0.".toList ++ zeros (places - ds.length) ++ ds

/-- A double with the fewest digits that read back, never with an exponent; a whole number has no
point. -/
def plainText (x : Binary64) : List Char :=
  if x.isNaN then "NaN".toList
  else if !x.isFinite then signText x ++ "inf".toList
  else if x.magnitude = 0 then signText x ++ ['0']
  else
    let (d, k) := shortest x
    signText x ++ positional (digitsOf d) k

/-- `text` has a point somewhere. -/
def hasPoint (text : List Char) : Bool := text.contains '.'

/-- As `plainText`, but a finite whole number ends in `.0`. -/
def pointedText (x : Binary64) : List Char :=
  let text := plainText x
  if !x.isFinite || hasPoint text then text else text ++ ".0".toList

/-- A finite double with the fewest digits that read back: positional and with a point from ten to
the power `low` to below `1e16`, else one digit, a point if more follow, and an exponent, which has
a plus sign if `plus` says so. -/
def scientificText (low : Int) (plus : Bool) (x : Binary64) : List Char :=
  if x.magnitude = 0 then signText x ++ "0.0".toList
  else
    let (d, k) := shortest x
    let ds := digitsOf d
    let point := Int.ofNat ds.length + k
    if 0 ≤ k && point ≤ 16 then signText x ++ positional ds k ++ ".0".toList
    else if low < point && point ≤ 16 then signText x ++ positional ds k
    else
      let mantissa := match ds with
        | [] => []
        | [c] => [c]
        | c :: more => c :: '.' :: more
      let sign := if plus && 1 ≤ point then ['+'] else []
      signText x ++ mantissa ++ 'e' :: sign ++ intText (point - 1)

end ServiceScaffold.Number
