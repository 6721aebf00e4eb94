import ServiceScaffold.Number.Binary64

/-!
# Fewest digits that read back

The decimal with the fewest digits among those that round to a given double, and of these the one
nearest to it.  The decimals that round to `m · 2 ^ q` form an interval around it, which holds its
ends if and only if `m` is even.
-/

namespace ServiceScaffold.Number

/-- Greatest `e` with `10 ^ e ≤ num / den`, searched downwards from `-start`. -/
def decimalExponentBelow (num den : Nat) : Nat → Nat → Int
  | 0, down => -Int.ofNat down
  | fuel + 1, down =>
    if den ≤ num * Nat.pow 10 down then -Int.ofNat down
    else decimalExponentBelow num den fuel (down + 1)

/-- Greatest `e` with `10 ^ e ≤ num / den`, for a positive quotient of a double. -/
def decimalExponent (num den : Nat) : Int :=
  if den ≤ num then Int.ofNat ((Nat.toDigits 10 (num / den)).length - 1)
  else decimalExponentBelow num den 330 1

/-- The decimals that round to one double, all over the common denominator `den`: from `low` to
`high`, with both ends if `closed`. -/
structure Interval where
  low : Nat
  value : Nat
  high : Nat
  den : Nat
  closed : Bool

/-- The interval of `m · 2 ^ q`; the gap below a power of two is half as wide. -/
def Interval.ofParts (m : Nat) (q : Int) : Interval :=
  let unit := if 0 ≤ q then Nat.pow 2 q.toNat else 1
  let den := if 0 ≤ q then 1 else Nat.pow 2 (-q).toNat
  let below := if m = Nat.pow 2 52 ∧ -1074 < q then unit else 2 * unit
  ⟨4 * m * unit - below, 4 * m * unit, 4 * m * unit + 2 * unit, 4 * den, m % 2 = 0⟩

/-- `d · 10 ^ k` lies in the interval. -/
def Interval.holds (i : Interval) (d : Nat) (k : Int) : Bool :=
  let point := if 0 ≤ k then d * Nat.pow 10 k.toNat * i.den else d * i.den
  let scale := if 0 ≤ k then 1 else Nat.pow 10 (-k).toNat
  if i.closed then i.low * scale ≤ point && point ≤ i.high * scale
  else i.low * scale < point && point < i.high * scale

/-- The nearer of the two neighbours of the value on the grid of multiples of `10 ^ k`, if it lies
in the interval; else the other one. -/
def Interval.onGrid? (i : Interval) (k : Int) : Option Nat :=
  let num := if 0 ≤ k then i.value else i.value * Nat.pow 10 (-k).toNat
  let den := if 0 ≤ k then i.den * Nat.pow 10 k.toNat else i.den
  let down := num / den
  let first := if 2 * (num % den) ≤ den then down else down + 1
  let second := if first = down then down + 1 else down
  if i.holds first k then some first else if i.holds second k then some second else none

/-- The first grid from `places` digits on that meets the interval. -/
def Interval.search (i : Interval) (top : Int) : Nat → Nat → Nat × Int
  | 0, places =>
    let k := top - Int.ofNat places + 1
    ((i.onGrid? k).getD 0, k)
  | fuel + 1, places =>
    let k := top - Int.ofNat places + 1
    match i.onGrid? k with
    | some d => (d, k)
    | none => i.search top fuel (places + 1)

/-- Trailing zeros of the digits go to the exponent. -/
def dropTrailingZeros : Nat → Nat → Int → Nat × Int
  | 0, d, k => (d, k)
  | fuel + 1, d, k =>
    if d % 10 = 0 then dropTrailingZeros fuel (d / 10) (k + 1) else (d, k)

/-- Whole number `d` and exponent `k` of the shortest decimal `d · 10 ^ k` of a finite double other
than zero, without its sign. -/
def shortest (x : Binary64) : Nat × Int :=
  let (m, q) := x.parts
  let (num, den) := x.quotient
  let (d, k) := (Interval.ofParts m q).search (decimalExponent num den) 16 1
  dropTrailingZeros 20 d k

end ServiceScaffold.Number
