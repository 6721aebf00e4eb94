import ServiceScaffold.Proofs.Syntax.Readings

/-!
# Where a token stands

In which brackets a token stands and what kind of token stands before it can be told from the tokens
before it.  Two texts are twins from here on if the same tokens stand in the same places in both of
them, and blanks differ only where no rule for types asks for them.

* `Spot` : where a token stands;
* `Spot.read` : where the token behind it stands;
* `Calm` : what is asked of the blanks before a token;
* `Twins` : two texts with the same tokens in the same places.
-/

namespace ServiceScaffold.Syntax

/-! ### Places -/

/-- Brackets, and the substitution of a template. -/
inductive Bracket where
  | round
  | square
  | curly
  | hole
  deriving DecidableEq

/-- What is to be read at a place. -/
inductive Mode where
  /-- A token. -/
  | code
  /-- The text of a template. -/
  | text
  /-- A substitution, or the closing quote of a template. -/
  | edge
  deriving DecidableEq

/-- What kind of token stands before a place. -/
inductive Behind where
  /-- A mark behind which no statement ends, whatever blanks follow. -/
  | opening
  /-- The arrow of a function. -/
  | arrow
  /-- A word or mark behind which a type goes on. -/
  | linking
  /-- Any other token. -/
  | closed
  deriving DecidableEq

/-- Marks behind which no statement ends. -/
def openingMarks : List String :=
  ["(", "[", "\x7b", ",", ";", "|", "&", "||", "&&", ":", "<", "...", ".", "="]

/-- Marks behind which a type goes on, if they are no part of a member of an object type. -/
def joiningMarks : List String := ["?", "-", "+"]

/-- Words behind which a type goes on, if they are no names. -/
def joiningWords : List String := ["extends", "is"]

/-- Words behind which a type goes on. -/
def linkingWords : List String :=
  ["keyof", "typeof", "readonly", "unique", "infer", "abstract", "new", "import", "asserts", "is",
    "extends", "const", "in", "as", "satisfies"]

/-- What kind of token a mark is for what follows it. -/
def markBehind (m : String) : Behind :=
  if openingMarks.contains m then .opening
  else if m == "=>" then .arrow
  else if joiningMarks.contains m then .linking
  else .closed

/-- What kind of token a word is for what follows it. -/
def wordBehind (w : String) : Behind := if linkingWords.contains w then .linking else .closed

/-- The brackets around a place. -/
structure Nest where
  /-- The brackets that are open, the innermost one first. -/
  stack : List Bracket
  /-- How many angle brackets are open outside of other brackets. -/
  angles : Nat
  mode : Mode
  deriving DecidableEq

/-- What a mark does to the brackets that are open. -/
inductive Turn where
  | opens (b : Bracket)
  | closes (b : Bracket)
  | opensAngle
  | closesAngle
  | stays
  deriving DecidableEq

/-- What a mark does to the brackets that are open. -/
def turnOf (m : String) : Turn :=
  if m = "(" then .opens .round
  else if m = "[" then .opens .square
  else if m = "\x7b" then .opens .curly
  else if m = ")" then .closes .round
  else if m = "]" then .closes .square
  else if m = "\x7d" then .closes .curly
  else if m = "<" then .opensAngle
  else if m = ">" then .closesAngle
  else .stays

/-- The brackets behind a mark; none if it closes a bracket that is not open. -/
def Nest.turn (n : Nest) : Turn → Option Nest
  | .opens b => some { n with stack := b :: n.stack }
  | .closes b =>
    match n.stack with
    | [] => none
    | c :: rest =>
      if c = b then some { n with stack := rest }
      else if c = .hole ∧ b = .curly then some { n with stack := rest, mode := .text }
      else none
  | .opensAngle => some (if n.stack = [] then { n with angles := n.angles + 1 } else n)
  | .closesAngle =>
    if n.stack = [] then if n.angles = 0 then none else some { n with angles := n.angles - 1 }
    else some n
  | .stays => some n

/-- Where a token stands. -/
structure Spot extends Nest where
  behind : Behind
  deriving DecidableEq

namespace Spot

/-- The place is in no brackets. -/
def isOut (p : Spot) : Bool := p.stack.isEmpty && p.angles == 0

/-- The place is in square brackets, so that an expression may stand there. -/
def isDeep (p : Spot) : Bool := p.stack.contains .square

/-- The place is in no brackets but angle ones, so that no member of an object type stands there. -/
def isBare (p : Spot) : Bool := p.stack.isEmpty

/-- What kind of token a mark is at the place. -/
def behindMark (p : Spot) (m : String) : Behind :=
  if p.isBare && joiningMarks.contains m then .opening else markBehind m

theorem behindMark_semicolon (p : Spot) : p.behindMark ";" = .opening := by
  unfold behindMark
  split_ifs <;> rfl

/-- What kind of token a word is at the place. -/
def behindWord (p : Spot) (w : String) : Behind :=
  if p.isBare && p.behind == .closed && joiningWords.contains w then .opening else wordBehind w

/-- The place behind a token. -/
def read (p : Spot) : Token → Option Spot
  | .mark m => (p.turn (turnOf (String.ofList m))).map fun n => ⟨n, p.behindMark (String.ofList m)⟩
  | .word w => some { p with behind := p.behindWord (String.ofList w) }
  | .privateName | .number | .string => some { p with behind := .closed }
  | .backQuote => some { p with mode := .text, behind := .closed }
  | .stray | .finish => none

/-- Words of expressions that hold statements. -/
def expressionWords : List String := ["function", "class", "async", "await", "yield"]

/-- The token starts what stands in no type: a value, a statement or a regular expression. -/
def forbids (p : Spot) : Token → Bool
  | .mark m => !p.isBare && m == ['='] || m == ['@'] || m.head? == some '/' ||
    p.isDeep && m == ['\x7b'] && p.behind != .opening
  | .word w => w == "export".toList || p.isDeep && expressionWords.contains (String.ofList w)
  | _ => false

end Spot

/-! ### Twins -/

/-- A statement may end before what is seen. -/
def Sight.ends (s : Sight) (inExpression : Bool) : Bool :=
  s.isPlain &&
    if s.token == .finish then true
    else if s.isBroken then endsBeforeLine inExpression s.body
    else s.token == .mark ['\x7d'] && endsBeforeBrace inExpression s.tail

theorem Scan.endsStatement_eq (s : Scan) (inExpression : Bool) :
    s.endsStatement inExpression = s.next.sight.ends inExpression := rfl

/-- Marks before which a line may end without ending a statement. -/
def quietMarks : List String :=
  [")", "]", "\x7d", ",", ";", ".", "|", "&", "||", "&&", "?", ":", "<", ">", "=>"]

/-- Blanks before a token make no difference between two texts: what the rules for types ask of them
has the same answer, or they do not ask at the place. -/
structure Calm (p : Spot) (t : Token) (a b : Sight) : Prop where
  ends (inExpression : Bool) : t ≠ .mark [')'] → t ≠ .mark [']'] →
    a.ends inExpression = b.ends inExpression
  out (inExpression : Bool) : p.stack = [] →
    a.ends inExpression = false ∧ b.ends inExpression = false
  broken : a.isBroken ≠ b.isBroken → ∃ m ∈ quietMarks, t = .mark m.toList

/-- A token with which no type goes on: a mark, or the end of the text. -/
def Token.stops (t : Token) : Prop :=
  t = .mark [';'] ∨ t = .mark [','] ∨ t = .mark ['\x7d'] ∨ t = .finish

/-- A token with which no type goes on, so that it starts a new line behind one. -/
def Token.startsLine : Token → Bool
  | .word w => w != "extends".toList && w != "is".toList
  | .string | .number | .privateName => true
  | .mark m => m == ['@']
  | _ => false

/-- A token with which a type goes on, but not on a new line. -/
def Token.joins : Token → Bool
  | .word w => w == "is".toList
  | .mark m => m == ['[']
  | _ => false

/-- A token that may start a new line behind a type. -/
def Token.mayStartLine (t : Token) : Bool := t.startsLine || t.joins

/-- Both texts are at the end of what they have in common: no type goes on there.  A new line may
start only in the first one, behind a token with which a type can end. -/
structure Stops (p : Spot) (a b : Sight) : Prop where
  left : a.token.stops ∨
    p.behind = .closed ∧ (a.token.startsLine ∨ a.token.joins ∧ a.ends false)
  right : b.token.stops

/-- The texts have the same tokens in the same places, up to the texts `k` and `k'` behind them. -/
inductive Twins (k k' : List Char) : Spot → List Char → List Char → Prop where
  | stop {p : Spot} (out : p.isOut) (mode : p.mode = .code)
      (stops : Stops p (Sight.ofText k) (Sight.ofText k')) : Twins k k' p k k'
  | token {p p' : Spot} {t : Token} {u u' : List Char} (mode : p.mode = .code)
      (left : (Sight.ofText u).token = t) (right : (Sight.ofText u').token = t)
      (allowed : p.forbids t = false)
      (calm : p.behind = .linking ∨ p.behind = .closed → Calm p t (Sight.ofText u) (Sight.ofText u'))
      (next : p.read t = some p') (rest : Twins k k' p' (Sight.ofText u).tail (Sight.ofText u').tail) :
      Twins k k' p u u'
  | text {p : Spot} {u u' : List Char} (mode : p.mode = .text)
      (rest : Twins k k' { p with mode := .edge } (templateTail u) (templateTail u')) :
      Twins k k' p u u'
  | hole {p : Spot} {u u' : List Char} (mode : p.mode = .edge)
      (rest : Twins k k' ⟨⟨.hole :: p.stack, p.angles, .code⟩, .opening⟩ u u') :
      Twins k k' p ('$' :: '\x7b' :: u) ('$' :: '\x7b' :: u')
  | quote {p : Spot} {u u' : List Char} (mode : p.mode = .edge)
      (rest : Twins k k' ⟨⟨p.stack, p.angles, .code⟩, .closed⟩ u u') :
      Twins k k' p ('`' :: u) ('`' :: u')

end ServiceScaffold.Syntax
