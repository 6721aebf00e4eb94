import ServiceScaffold.Template.Value
import ServiceScaffold.Text.Blank

/-!
# Operators of templates

Arithmetic on whole numbers of 128 bits and on doubles, joining of texts and lists, membership,
and slices.
-/

namespace ServiceScaffold.Template

/-- The operators between two values. -/
inductive BinaryOperator where
  | add
  | sub
  | mul
  | div
  | floorDiv
  | rem
  | pow
  | concat
  | equal
  | unequal
  | less
  | lessEqual
  | greater
  | greaterEqual
  | contains
  deriving DecidableEq, Repr, Inhabited

namespace Value

/-- The problem of an operator whose operands have no such operation. -/
def unsupported (symbol : String) (a b : Value) : Problem :=
  .invalid ("tried to use " ++ symbol ++ " operator on unsupported types " ++ a.kind.text ++
    " and " ++ b.kind.text)

/-- The problem of an operation without a result. -/
def noResult (symbol : String) (a b : Value) : Problem :=
  .invalid ("unable to calculate " ++ a.display ++ " " ++ symbol ++ " " ++ b.display)

/-- A whole number, if it has at most 128 bits. -/
def ofInt? (n : Int) : Option Value := if isWide n then some (.int n) else Option.none

/-- An operation on whole numbers or doubles. -/
def arithmetic (symbol : String) (onInts : Int → Int → Option Int)
    (onFloats : Binary64 → Binary64 → Binary64) (a b : Value) : Result Value :=
  match pair? false a b with
  | some (.ints m n) =>
    match (onInts m n).bind ofInt? with
    | some v => .ok v
    | Option.none => .error (noResult symbol a b)
  | some (.floats x y) => .ok (.float (onFloats x y))
  | _ => .error (unsupported symbol a b)

/-- The items of a list, and whether their number is known. -/
def sequence? : Value → Option (Bool × List Value)
  | .list items => some (true, items)
  | .stream counted items => some (counted, items)
  | _ => Option.none

/-- A sum; texts and lists are joined. -/
def add (a b : Value) : Result Value :=
  match a.sequence?, b.sequence? with
  | some (counted, xs), some (alsoCounted, ys) => .ok (.stream (counted && alsoCounted) (xs ++ ys))
  | _, _ =>
    match a, b with
    | .text s, .text t => .ok (.text (s ++ t))
    | _, _ => arithmetic "+" (fun m n => some (m + n)) Binary64.add a b

/-- How often something is repeated. -/
def times? (v : Value) : Option Nat :=
  v.index?.bind fun n => if 0 ≤ n then some n.toNat else Option.none

/-- A text several times. -/
def repeatText (s : String) (v : Value) : Result Value :=
  match v.times? with
  | some n => .ok (.text (String.ofList (List.replicate n s.toList).flatten))
  | Option.none => .error (.invalid "strings can only be multiplied with integers")

/-- A list several times. -/
def repeatItems (counted : Bool) (items : List Value) (v : Value) : Result Value :=
  match v.times? with
  | some n =>
    if counted then .ok (.stream true (List.replicate n items).flatten)
    else .error (.invalid "cannot repeat unsized iterables")
  | Option.none => .error (.invalid "sequences and iterables can only be multiplied with integers")

/-- The value is neither a list nor a map nor a function. -/
def isScalar (v : Value) : Bool :=
  match v.kind with
  | .undefined => true
  | .none => true
  | .bool => true
  | .number => true
  | .string => true
  | _ => false

/-- A product; texts and lists are repeated. -/
def mul (a b : Value) : Result Value :=
  match a, b with
  | .text s, v => repeatText s v
  | v, .text s => repeatText s v
  | _, _ =>
    match a.sequence?, b.sequence? with
    | some (counted, items), _ => repeatItems counted items b
    | Option.none, some (counted, items) =>
      if a.isScalar then repeatItems counted items a else .error (unsupported "*" a b)
    | _, _ => arithmetic "*" (fun m n => some (m * n)) Binary64.mul a b

/-- A quotient of doubles. -/
def div (a b : Value) : Result Value :=
  match float? false a, float? false b with
  | some x, some y => .ok (.float (x.div y))
  | _, _ => .error (unsupported "/" a b)

/-- The whole part of a quotient. -/
def floorDiv (a b : Value) : Result Value :=
  arithmetic "//" (fun m n => if n = 0 then Option.none else some (m / n)) Binary64.floorDiv a b

/-- The remainder, which is not negative for whole numbers. -/
def rem (a b : Value) : Result Value :=
  arithmetic "%" (fun m n => if n = 0 then Option.none else some (m % n)) Binary64.rem a b

/-- A power of whole numbers; exponents out of reach have no result. -/
def powInt (m n : Int) : Option Int :=
  if n < 0 ∨ Int.pow 2 32 ≤ n then Option.none
  else if m = 0 ∨ m = 1 then some (if n = 0 then 1 else m)
  else if m = -1 then some (if n % 2 = 0 then 1 else -1)
  else if 128 ≤ n then Option.none
  else some (Int.pow m n.toNat)

/-- A power. -/
def pow (a b : Value) : Result Value := arithmetic "**" powInt Binary64.pow a b

/-- The number with the other sign.  That of `2 ^ 127` is the number itself: with 128 bits it has no
other sign. -/
def neg : Value → Result Value
  | .int n => if n = Int.pow 2 127 then .ok (.int n)
    else if !isWide n then .error (.plain .invalidOperation)
    else match ofInt? (-n) with
      | some v => .ok v
      | Option.none => .error (.invalid "overflow")
  | .float x => .ok (.float x.neg)
  | _ => .error (.plain .invalidOperation)

/-- A container holds a value: a text holds a part, a map a key, a list an item. -/
def contains (container v : Value) : Result Value :=
  match container with
  | .undefined => .ok (.bool false)
  | .text s => .ok (.bool (Text.contains v.display.toList s.toList))
  | .list items => .ok (.bool (items.any (·.same v)))
  | .stream _ items => .ok (.bool (items.any (·.same v)))
  | .helper _ => .ok (.bool false)
  | _ =>
    match container.entries? with
    | some entries => .ok (.bool (lookup v entries).isSome)
    | Option.none => .error (.invalid "cannot perform a containment check on this value")

/-- Applies an operator. -/
def apply : BinaryOperator → Value → Value → Result Value
  | .add, a, b => add a b
  | .sub, a, b => arithmetic "-" (fun m n => some (m - n)) Binary64.sub a b
  | .mul, a, b => mul a b
  | .div, a, b => div a b
  | .floorDiv, a, b => floorDiv a b
  | .rem, a, b => rem a b
  | .pow, a, b => pow a b
  | .concat, a, b => .ok (.text (a.display ++ b.display))
  | .equal, a, b => .ok (.bool (a.same b))
  | .unequal, a, b => .ok (.bool (!a.same b))
  | .less, a, b => .ok (.bool (a.compare b == .lt))
  | .lessEqual, a, b => .ok (.bool (a.compare b != .gt))
  | .greater, a, b => .ok (.bool (a.compare b == .gt))
  | .greaterEqual, a, b => .ok (.bool (a.compare b != .lt))
  | .contains, a, b => contains b a

/-! ### Slices -/

/-- Every `step`-th item. -/
def everyNth {α : Type} (step : Nat) : Nat → List α → List α
  | _, [] => []
  | 0, x :: rest => x :: everyNth step (step - 1) rest
  | wait + 1, _ :: rest => everyNth step wait rest

/-- A place that counts from the end if it is negative.  There is none before the first item. -/
def placeIn? (length : Nat) (place : Int) : Option Nat :=
  let place := if place < 0 then place + length else place
  if place < 0 then Option.none else some place.toNat

/-- The items from `start` to before `stop`, where `length` is the number of all items as far as it
is known.  From a place before the first item on there are none, and a stop there is no bound. -/
def itemsBetween {α : Type} (length : Nat) (items : List α) (start stop : Option Int) : List α :=
  match placeIn? length (start.getD 0) with
  | Option.none => []
  | some first =>
    match placeIn? length (stop.getD length) with
    | Option.none => items.drop first
    | some last => (items.take last).drop first

/-- There is room for items from `start` to before `stop`. -/
def hasRoom (length : Nat) (start stop : Option Int) : Bool :=
  match placeIn? length (start.getD 0), placeIn? length (stop.getD length) with
  | some first, some last => first < last
  | some _, Option.none => true
  | Option.none, _ => false

/-- The items from `start` back to after `stop` in steps.  Nothing stands before the first item, so
a stop there takes it too. -/
def backwardItems {α : Type} (items : List α) (start stop : Option Int) (step : Nat) : List α :=
  let length := items.length
  let first := min (length - 1) ((start.map fun n => (placeIn? length n).getD 0).getD length)
  let last := (stop.bind (placeIn? length)).getD 0
  let last := if last = 0 then 0 else last + 1
  everyNth step 0 ((items.take (first + 1)).drop last).reverse

/-- The items from `start` to before `stop` in steps; backwards if the step is negative. -/
def sliceItems {α : Type} (length : Nat) (items : List α) (start stop : Option Int) (step : Int) :
    List α :=
  if 0 < step then everyNth step.toNat 0 (itemsBetween length items start stop)
  else backwardItems items start stop step.natAbs

/-- A bound of a slice. -/
def bound : Value → Result (Option Int)
  | .none => .ok Option.none
  | v =>
    match v.index? with
    | some n => .ok (some n)
    | Option.none => .error (.invalid ("cannot convert " ++ v.kind.text ++ " to i64"))

/-- Part of a text or a list. -/
def slice (v start stop step : Value) : Result Value := do
  let start ← bound start
  let stop ← bound stop
  let step := (← bound step).getD 1
  if step = 0 then throw (.invalid "cannot slice by step size of 0")
  match v with
  | .undefined => pure (.list [])
  | .none => pure (.list [])
  | .text s =>
    pure (.text (String.ofList (sliceItems s.toList.length s.toList start stop step)))
  | _ =>
    match v.sequence? with
    | some (counted, items) =>
      let length := if counted then items.length else 0
      let part := sliceItems length items start stop step
      pure (.stream (counted || step < 0 || !hasRoom length start stop) part)
    | Option.none => throw (.invalid ("value of type " ++ v.kind.text ++ " cannot be sliced"))

end Value

end ServiceScaffold.Template
