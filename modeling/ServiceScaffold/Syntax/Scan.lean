import ServiceScaffold.Syntax.Token

/-!
# Reading tokens

The state of reading a text (`Scan`): what is left of it, the token that comes next with the
comments before it, and the nodes that have been read for the node under construction.  A comment
becomes a child of the innermost node that holds a token before it and a token after it.
-/

namespace ServiceScaffold.Syntax

/-- The place `n` characters further on. -/
def Location.advance (l : Location) : Nat → List Char → Location
  | n + 1, c :: cs => (l.after c).advance n cs
  | _, _ => l

/-- The place where `rest` starts, an end of `cs`, which starts at `l`. -/
def Location.skipTo (l : Location) (cs rest : List Char) : Location :=
  l.advance (cs.length - rest.length) cs

/-- Blanks and comments before a token. -/
structure Gap where
  /-- Comments before the first line break, the last one first. -/
  near : List Node
  /-- Comments after a line break, the last one first. -/
  far : List Node
  /-- There is a line break outside of comments. -/
  isBroken : Bool
  /-- All blanks are of ASCII. -/
  isPlain : Bool
  /-- Where the last comment stops. -/
  last : Location
  location : Location
  rest : List Char
  deriving Repr, Inhabited

/-- One more blank. -/
def Gap.blank (g : Gap) (c : Char) (rest : List Char) : Gap :=
  { g with
    isBroken := g.isBroken || c == '\n'
    isPlain := g.isPlain && isAsciiSpace c
    location := g.location.after c
    rest := rest }

/-- One more comment. -/
def Gap.comment (g : Gap) (rest : List Char) : Gap :=
  let stop := g.location.skipTo g.rest rest
  let node := Node.mk .comment none g.location stop false []
  let g := { g with last := stop, location := stop, rest := rest }
  if g.isBroken then { g with far := node :: g.far } else { g with near := node :: g.near }

/-- Reads at most `fuel` blanks and comments. -/
def Gap.extend : Nat → Gap → Gap
  | 0, g => g
  | fuel + 1, g =>
    match g.rest with
    | [] => g
    | c :: rest =>
      if isSpace c then Gap.extend fuel (g.blank c rest)
      else match comment? (c :: rest) with
        | some rest => Gap.extend fuel (g.comment rest)
        | none => g

/-- The blanks and comments at the start of a text. -/
def Gap.ofText (location : Location) (cs : List Char) : Gap :=
  Gap.extend (cs.length + 1) ⟨[], [], false, true, location, location, cs⟩

/-- The token that comes next, what stands before it and what follows it. -/
structure Upcoming where
  gap : Gap
  token : Token
  stop : Location
  tail : List Char
  deriving Repr, Inhabited

/-- Looks for the next token. -/
def Upcoming.ofText (location : Location) (cs : List Char) : Upcoming :=
  let gap := Gap.ofText location cs
  let (tok, tail) := Token.ofText gap.rest
  ⟨gap, tok, gap.location.skipTo gap.rest tail, tail⟩

/-- Where the token starts. -/
def Upcoming.start (u : Upcoming) : Location := u.gap.location

/-- The state of reading a text. -/
structure Scan where
  /-- Where the last token stopped. -/
  stop : Location
  /-- The text from there on. -/
  rest : List Char
  next : Upcoming
  /-- The children of the node under construction, the last one first. -/
  children : List Node
  /-- The end of a line may end a statement. -/
  breaks : Bool
  /-- Absent tokens are made up for. -/
  isLenient : Bool
  /-- The furthest token that did not fit. -/
  reach : Nat
  deriving Repr, Inhabited

namespace Scan

/-- Starts to read a text. -/
def ofText (location : Location) (cs : List Char) : Scan :=
  ⟨location, cs, Upcoming.ofText location cs, [], true, false, 0⟩

/-- Goes on to read at a place. -/
def moveTo (s : Scan) (stop : Location) (rest : List Char) : Scan :=
  { s with stop := stop, rest := rest, next := Upcoming.ofText stop rest }

/-- Adds a child. -/
def push (s : Scan) (n : Node) : Scan := { s with children := n :: s.children }

/-- Adds the comments before the next token as children. -/
def pushComments (s : Scan) : Scan :=
  let gap := s.next.gap
  { s with
    children := gap.far ++ gap.near ++ s.children
    next := { s.next with gap := { gap with near := [], far := [] } } }

/-- Adds the comments before the next line break as children. -/
def pushNearComments (s : Scan) : Scan :=
  let gap := s.next.gap
  { s with
    children := gap.near ++ s.children
    next := { s.next with gap := { gap with near := [] } } }

/-- Reads the next token as a node. -/
def take (s : Scan) (kind : NodeKind) : Scan :=
  let s := s.pushComments
  (s.push (.mk kind none s.next.start s.next.stop false [])).moveTo s.next.stop s.next.tail

/-- Notes that the next token does not fit. -/
def refuse (s : Scan) : Nat := max s.reach s.next.start.offset

/-- A statement may end here without a semicolon: at the end of the text, before a closing brace,
or before a new line with something that cannot continue it. -/
def endsStatement (s : Scan) (inExpression : Bool) : Bool :=
  let gap := s.next.gap
  gap.isPlain &&
    if s.next.token == .finish then true
    else if gap.isBroken then endsBeforeLine inExpression gap.rest
    else s.next.token == .mark ['\x7d'] && endsBeforeBrace inExpression s.next.tail

end Scan

end ServiceScaffold.Syntax
