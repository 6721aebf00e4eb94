import ServiceScaffold.Template.Token
import ServiceScaffold.Template.Tree

/-!
# Reading lexemes

A reader takes lexemes from the front of its input.  A problem is placed at the line of the last
lexeme that was taken.
-/

namespace ServiceScaffold.Template

/-- What is left to read. -/
structure Input where
  lexemes : List Lexeme
  /-- The problem after the last lexeme. -/
  problem : Option Problem
  /-- Line of the last lexeme that was taken. -/
  line : Nat
  /-- The blocks that have been read or are being read. -/
  blocks : List (String × List Stmt)
  inFunction : Bool
  deriving Inhabited

/-- Readers of lexemes. -/
abbrev Reader := StateT Input (Except Problem)

namespace Reader

/-- A problem at the last lexeme. -/
def fail {α : Type} (p : Problem) : Reader α := fun input => .error (p.atLine input.line)

/-- A malformed template. -/
def malformed {α : Type} (detail : String) : Reader α := fail (.malformed detail)

/-- Something else was expected. -/
def unexpected {α : Type} (found : Option Token) (expected : String) : Reader α :=
  let found := match found with
    | some token => token.describe
    | none => "end of input"
  malformed ("unexpected " ++ found ++ ", expected " ++ expected)

/-- The tree has too many levels. -/
def tooDeep {α : Type} : Reader α := malformed "template exceeds maximum recursion limits"

/-- Number of the lexemes that are left. -/
def left : Reader Nat := fun input => .ok (input.lexemes.length, input)

/-- Line of the last lexeme that was taken. -/
def lastLine : Reader Nat := fun input => .ok (input.line, input)

/-- Line of the next lexeme. -/
def nextLine : Reader Nat := fun input =>
  .ok ((input.lexemes.head?.map Lexeme.line).getD input.line, input)

/-- The next token, which is not taken. -/
def peek : Reader (Option Token) := fun input =>
  match input.lexemes, input.problem with
  | lexeme :: _, _ => .ok (some lexeme.token, input)
  | [], some p => .error (p.atLine input.line)
  | [], none => .ok (none, input)

/-- Takes the next token. -/
def next : Reader (Option Token) := fun input =>
  match input.lexemes, input.problem with
  | lexeme :: rest, _ =>
    .ok (some lexeme.token, { input with lexemes := rest, line := lexeme.line })
  | [], some p => .error (p.atLine input.line)
  | [], none => .ok (none, input)

/-- Takes the next token, which has to be `token`. -/
def expect (token : Token) (expected : String) : Reader Unit := do
  let found ← next
  if found = some token then pure () else unexpected found expected

/-- Takes the next token, which has to be a mark. -/
def expectMark (s : String) : Reader Unit := expect (.mark s) ("`" ++ s ++ "`")

/-- Takes the next token, which has to be a name. -/
def expectName : Reader String := do
  match ← next with
  | some (.name s) => pure s
  | found => unexpected found "identifier"

/-- Takes the end of a block. -/
def expectBlockEnd : Reader Unit := expect .blockEnd "end of block"

/-- The next token is one of those that satisfy `p`. -/
def nextIs (p : Token → Bool) : Reader Bool := do pure ((← peek).any p)

/-- Takes the next token if it is `token`. -/
def accept (token : Token) : Reader Bool := do
  if (← peek) = some token then
    let _ ← next
    pure true
  else pure false

/-- Takes the next token if it is a mark. -/
def acceptMark (s : String) : Reader Bool := accept (.mark s)

/-- Takes the next token if it is a word. -/
def acceptWord (s : String) : Reader Bool := accept (.name s)

/-- Goes on from a result as long as there is more to read. -/
def extend {α : Type} (step : α → Reader (Option α)) : Nat → α → Reader α
  | 0, a => pure a
  | fuel + 1, a => do
    match ← step a with
    | some a => extend step fuel a
    | none => pure a

/-- Goes on from a result; each step takes a lexeme at least. -/
def extendAll {α : Type} (step : α → Reader (Option α)) (a : α) : Reader α := do
  extend step ((← left) + 1) a

/-- Items up to a closing mark, with commas between them and possibly after the last. -/
def listUntil {α : Type} (close : String) (item : Reader α) : Reader (List α) := do
  let items ← extendAll (fun (items : Option (List α)) => do
    match items with
    | none => if ← acceptMark close then pure none else pure (some (some [← item]))
    | some items =>
      if ← acceptMark close then pure none
      else
        expectMark ","
        if ← acceptMark close then pure none else pure (some (some ((← item) :: items)))) none
  pure ((items.getD []).reverse)

end Reader

end ServiceScaffold.Template
