import ServiceScaffold.Number.Binary64

/-!
# Arithmetic of binary floating-point numbers

Sums, products and quotients, which the machine rounds to the nearest double; remainders, which are
exact; order; and the whole numbers among the doubles.
-/

namespace ServiceScaffold.Binary64

/-- The number in the form in which the machine calculates with it. -/
def toFloat (x : Binary64) : Float := Float.ofBits x.bits

/-- The number that the machine holds. -/
def ofFloat (x : Float) : Binary64 := ⟨x.toBits⟩

/-- The sum. -/
def add (x y : Binary64) : Binary64 := ofFloat (x.toFloat + y.toFloat)

/-- The difference. -/
def sub (x y : Binary64) : Binary64 := ofFloat (x.toFloat - y.toFloat)

/-- The product. -/
def mul (x y : Binary64) : Binary64 := ofFloat (x.toFloat * y.toFloat)

/-- The quotient. -/
def div (x y : Binary64) : Binary64 := ofFloat (x.toFloat / y.toFloat)

/-- The power. -/
def pow (x y : Binary64) : Binary64 := ofFloat (x.toFloat ^ y.toFloat)

/-- Equality of numbers: both zeros are equal, and what is no number differs from itself. -/
def same (x y : Binary64) : Bool :=
  !x.isNaN && !y.isNaN && (x.bits == y.bits || (x.magnitude == 0 && y.magnitude == 0))

/-- A number that grows with the value; the negative zero comes before the positive one. -/
def rank (x : Binary64) : Int :=
  if x.isNegative then -Int.ofNat x.magnitude - 1 else Int.ofNat x.magnitude

/-- No value at all. -/
def notANumber : Binary64 := ofPattern false (infinityPattern + Nat.pow 2 51)

/-- The whole number next to a finite `x` in the direction of zero. -/
def truncated (x : Binary64) : Int :=
  let (num, den) := x.quotient
  let n := Int.ofNat (num / den)
  if x.isNegative then -n else n

/-- The whole number that a double is. -/
def wholeNumber? (x : Binary64) : Option Int :=
  if !x.isFinite then none
  else
    let (num, den) := x.quotient
    if num % den = 0 then some x.truncated else none

/-- What remains of `x` when multiples of `y` are taken off in the direction of zero. -/
def rem (x y : Binary64) : Binary64 :=
  if !x.isFinite || y.isNaN || y.magnitude = 0 then notANumber
  else if !y.isFinite then x
  else
    let (a, b) := x.quotient
    let (c, d) := y.quotient
    nearest x.isNegative (a * d % (c * b)) (b * d)

/-- A double without its fraction. -/
def trunc (x : Binary64) : Binary64 :=
  if !x.isFinite then x
  else
    let (num, den) := x.quotient
    nearest x.isNegative (num / den) 1

/-- The quotient without its fraction, such that the remainder is not negative. -/
def floorDiv (x y : Binary64) : Binary64 :=
  let q := (x.div y).trunc
  let r := x.rem y
  if r.isNegative && r.magnitude != 0 && !r.isNaN then
    if y.isNegative then q.add (ofInt 1) else q.sub (ofInt 1)
  else q

end ServiceScaffold.Binary64
