/-!
# Binary floating-point numbers

Double precision numbers as bit patterns, with exact arithmetic on natural numbers for their values
and for rounding: `Binary64.nearest` is the double closest to a quotient, the one with the even
pattern if two are equally close.  Powers are written `Nat.pow` and `Int.pow`, which mean the same
whatever algebra is imported.
-/

namespace ServiceScaffold

/-- A double precision number, as its bit pattern. -/
structure Binary64 where
  bits : UInt64
  deriving DecidableEq, Repr, Inhabited

namespace Number

/-- `num / den` rounded to a natural number; halves go to the even neighbour. -/
def roundHalfEven (num den : Nat) : Nat :=
  let q := num / den
  let r := num % den
  if 2 * r < den then q
  else if den < 2 * r then q + 1
  else if q % 2 = 0 then q else q + 1

/-- The exponent of two by which a double scales the whole number it holds for `num / den`. -/
def binaryExponent (num den : Nat) : Int :=
  let guess : Int := Int.ofNat num.log2 - Int.ofNat den.log2 - 52
  let fits (e : Int) : Bool :=
    if 0 ≤ e then decide (den * Nat.pow 2 (e.toNat + 52) ≤ num)
    else decide (den * Nat.pow 2 52 ≤ num * Nat.pow 2 (-e).toNat)
  max (-1074) (if fits guess then guess else guess - 1)

end Number

namespace Binary64

open Number

/-- The pattern of the sign bit. -/
def signBit (negative : Bool) : Nat := if negative then Nat.pow 2 63 else 0

/-- The pattern of infinity without its sign. -/
def infinityPattern : Nat := 2047 * Nat.pow 2 52

/-- Zero or infinity or any pattern below 2^63, with a sign. -/
def ofPattern (negative : Bool) (pattern : Nat) : Binary64 :=
  ⟨UInt64.ofNat (signBit negative + pattern)⟩

/-- The double closest to `num / den`. -/
def nearest (negative : Bool) (num den : Nat) : Binary64 :=
  if num = 0 then ofPattern negative 0
  else
    let e := binaryExponent num den
    let m := if 0 ≤ e then roundHalfEven num (den * Nat.pow 2 e.toNat)
      else roundHalfEven (num * Nat.pow 2 (-e).toNat) den
    let pattern := (e + 1074).toNat * Nat.pow 2 52 + m
    ofPattern negative (min pattern infinityPattern)

/-- The double closest to a whole number. -/
def ofInt (n : Int) : Binary64 := nearest (decide (n < 0)) n.natAbs 1

/-- The sign bit is set. -/
def isNegative (x : Binary64) : Bool := decide (Nat.pow 2 63 ≤ x.bits.toNat)

/-- The pattern without the sign. -/
def magnitude (x : Binary64) : Nat := x.bits.toNat % Nat.pow 2 63

/-- Neither infinite nor without value. -/
def isFinite (x : Binary64) : Bool := decide (x.magnitude < infinityPattern)

/-- No value at all. -/
def isNaN (x : Binary64) : Bool := decide (infinityPattern < x.magnitude)

/-- The same number with the other sign. -/
def neg (x : Binary64) : Binary64 := ofPattern (!x.isNegative) x.magnitude

/-- The whole number and the power of two whose product is the absolute value of a finite `x`. -/
def parts (x : Binary64) : Nat × Int :=
  let field := x.magnitude / Nat.pow 2 52
  let fraction := x.magnitude % Nat.pow 2 52
  if field = 0 then (fraction, -1074) else (fraction + Nat.pow 2 52, Int.ofNat field - 1075)

/-- The absolute value of a finite `x` as a quotient. -/
def quotient (x : Binary64) : Nat × Nat :=
  let (m, q) := x.parts
  if 0 ≤ q then (m * Nat.pow 2 q.toNat, 1) else (m, Nat.pow 2 (-q).toNat)

/-- Positive infinity. -/
def infinity : Binary64 := ofPattern false infinityPattern

end Binary64

end ServiceScaffold
