import ServiceScaffold.Syntax.Scan

/-!
# Rules of a grammar

What a text may hold, as data: a `Rule` is put together from tokens, sequences, ordered choices and
repetitions, and says which nodes it makes.  `Rule.read` reads a text by a rule, and `readGoal` by a
grammar, which gives a rule to each of its goals.
-/

namespace ServiceScaffold.Syntax

/-- A rule over the goals `G` of a grammar. -/
inductive Rule (G : Type) where
  /-- Nothing. -/
  | empty
  /-- A word of fixed letters. -/
  | word (letters : String)
  /-- A mark of fixed characters. -/
  | mark (characters : String)
  /-- Any word but some, as a node. -/
  | name (kind : NodeKind) (except : List String)
  /-- A token of the kind of another, as a node. -/
  | literal (token : Token) (kind : NodeKind)
  /-- A regular expression. -/
  | regex
  /-- Text of a template, as far as its end or its next substitution. -/
  | templateText
  /-- The start of a substitution. -/
  | substitutionStart
  | seq (first second : Rule G)
  /-- The first rule, and where it does not fit the second one. -/
  | choice (first second : Rule G)
  /-- As often as it fits. -/
  | many (rule : Rule G)
  /-- The rule fits here; nothing is read. -/
  | ahead (rule : Rule G)
  /-- The rule does not fit here. -/
  | notAhead (rule : Rule G)
  /-- A node with what the rule reads as its children. -/
  | node (kind : NodeKind) (rule : Rule G)
  /-- A node whose first child is the node read last. -/
  | wrap (kind : NodeKind) (rule : Rule G)
  /-- The node read last gets a part in its parent. -/
  | part (field : FieldName) (rule : Rule G)
  /-- Whether the end of a line may end a statement in what the rule reads. -/
  | breaking (breaks : Bool) (rule : Rule G)
  /-- No statement ends here. -/
  | goesOn (inExpression : Bool)
  /-- The next token stands on the same line, if the end of a line may end a statement. -/
  | sameLine
  /-- A semicolon, or the end of a statement without one. -/
  | semicolon (inExpression : Bool)
  /-- Absent tokens are made up for in what the rule reads. -/
  | lenient (rule : Rule G)
  /-- A node with absent tokens, if it can only be read with them. -/
  | mended (rule : Rule G)
  /-- Absent tokens are made up for here. -/
  | inLenient
  /-- Stands for a token that is absent. -/
  | missing (kind : NodeKind)
  /-- The text is at its end. -/
  | finish
  /-- An error up to where the rule fits again, before a mark or the end at the latest. -/
  | skipped (stop : List String) (rule : Rule G)
  /-- An error up to a mark that no bracket before it opens. -/
  | skippedTo (stop : String)
  | goal (g : G)
  deriving Inhabited

/-- What comes of reading: the next state, or how far the text could be read. -/
abbrev Reading := Except Nat Scan

namespace Scan

/-- Reads the next token as a node of kind `kind`, if it satisfies `p`. -/
def accept (s : Scan) (p : Token → Bool) (kind : NodeKind) : Reading :=
  if p s.next.token then .ok (s.take kind) else .error s.refuse

/-- Reads a regular expression. -/
def acceptRegex (s : Scan) : Reading :=
  let u := s.next
  match u.gap.rest with
  | '/' :: rest =>
    match regexTail? false rest with
    | some tail =>
      let s := s.pushComments
      let stop := u.start.skipTo u.gap.rest tail
      .ok ((s.push (.mk .expression none u.start stop false [])).moveTo stop tail)
    | none => .error s.refuse
  | _ => .error s.refuse

/-- Goes on behind the text of a template. -/
def passTemplateText (s : Scan) : Scan :=
  let tail := templateTail s.rest
  s.moveTo (s.stop.skipTo s.rest tail) tail

/-- Reads the start of a substitution, which follows without blanks. -/
def acceptSubstitution (s : Scan) : Reading :=
  match s.rest with
  | '$' :: '\x7b' :: tail =>
    let stop := s.stop.skipTo s.rest tail
    .ok ((s.push (.mk (.token "$\x7b") none s.stop stop false [])).moveTo stop tail)
  | _ => .error s.refuse

/-- Closes a node: its children are those of `inner`, and it becomes a child in `outer`. -/
def close (outer inner : Scan) (kind : NodeKind) (start : Location) : Scan :=
  { inner with
    children := .mk kind none start inner.stop false inner.children.reverse :: outer.children }

/-- The node read last holds an error or an absent token. -/
def isMended (s : Scan) : Bool := s.children.head?.any (·.hasError)

/-- Adds a node without text. -/
def pushMissing (s : Scan) (kind : NodeKind) : Scan :=
  s.push (.mk kind none s.stop s.stop true [])

/-- The end of a statement. -/
def acceptSemicolon (s : Scan) (inExpression : Bool) : Reading :=
  if s.next.token == .mark [';'] then .ok (s.take (.token ";"))
  else if s.endsStatement inExpression then .ok s.pushNearComments
  else .error s.refuse

/-- The next token is one of some marks. -/
def isAt (s : Scan) (marks : List String) : Bool :=
  match s.next.token with
  | .mark m => marks.contains (String.ofList m)
  | _ => false

/-- Reads a token whatever it is.  A slash starts a regular expression, which goes to the end of
the line if it is not closed. -/
def takeAny (s : Scan) : Scan :=
  match s.next.token with
  | .mark ['/'] =>
    match s.acceptRegex with
    | .ok next => next
    | .error _ =>
      let s := s.take (.token "/")
      let tail := s.rest.dropWhile (!isLineEnd ·)
      s.moveTo (s.stop.skipTo s.rest tail) tail
  | .mark m => s.take (.token (String.ofList m))
  | .word _ => s.take .identifier
  | _ => s.take (.token "")

/-- The next token joins two expressions. -/
def isAtOperator (s : Scan) : Bool :=
  s.isAt ["*", "/", "%", "=", ".", "?", "&", "|", "^", "==", "===", "!=", "!==", "&&", "||", "??",
    "**"]

/-- Reads tokens as children, as long as they start before `target` or the text from them on does
not fit, but none that is one of `stop`. -/
def skipWhile (fits : Scan → Bool) (stop : List String) (target : Nat) : Nat → Scan → Scan
  | 0, s => s
  | fuel + 1, s =>
    if s.next.token == .finish || s.isAt stop then s
    else if target ≤ s.next.start.offset && fits s then s
    else skipWhile fits stop target fuel s.takeAny

/-- Reads an error, with `read` as what may follow it. -/
def skip (s : Scan) (read : Scan → Reading) (stop : List String) : Reading :=
  if s.next.token == .finish || s.isAt stop then .error s.refuse
  else
    let s := s.pushComments
    let start := if s.isAtOperator then s.next.gap.last else s.next.start
    let target := match read { s with reach := 0 } with
      | .ok _ => 0
      | .error reach => reach
    let fits (s : Scan) := match read { s with isLenient := true } with
      | .ok _ => true
      | .error _ => false
    let inner := skipWhile fits stop target s.rest.length { s with children := [] }.takeAny
    .ok (s.close inner .error start)

/-- Reads tokens as children up to the mark `stop`; `depth` brackets are open. -/
def skipBalanced (stop : String) : Nat → Nat → Scan → Scan
  | 0, _, s => s
  | fuel + 1, depth, s =>
    if s.next.token == .finish || (depth == 0 && s.isAt [stop]) then s
    else
      let depth :=
        if s.isAt ["\x7b", "(", "["] then depth + 1
        else if s.isAt ["\x7d", ")", "]"] then depth - 1 else depth
      skipBalanced stop fuel depth s.takeAny

/-- Reads an error up to the mark `stop`. -/
def skipTo (s : Scan) (stop : String) : Reading :=
  if s.next.token == .finish || s.isAt [stop] then .error s.refuse
  else
    let s := s.pushComments
    let inner := skipBalanced stop s.rest.length 0 { s with children := [] }
    .ok (s.close inner .error s.next.start)

/-- Reads by `read` as often as something is read. -/
def repeatedly (read : Scan → Reading) : Nat → Scan → Scan
  | 0, s => s
  | fuel + 1, s =>
    match read s with
    | .ok next =>
      if next.stop.offset = s.stop.offset && next.children.length = s.children.length then s
      else repeatedly read fuel next
    | .error reach => { s with reach := reach }

end Scan

namespace Rule

variable {G : Type}

/-- All rules of a list, one after the other. -/
def all : List (Rule G) → Rule G
  | [] => .empty
  | [r] => r
  | r :: rest => .seq r (all rest)

/-- The first rule of a list that fits. -/
def any : List (Rule G) → Rule G
  | [] => .notAhead .empty
  | [r] => r
  | r :: rest => .choice r (any rest)

/-- The rule, if it fits. -/
def opt (r : Rule G) : Rule G := .choice r .empty

/-- At least one. -/
def many1 (r : Rule G) : Rule G := .seq r (.many r)

/-- Rules with separators between them; one more separator may follow. -/
def list (separator r : Rule G) : Rule G :=
  all [r, .many (.seq separator r), opt separator]

/-- One or more with separators between them. -/
def list1 (separator r : Rule G) : Rule G := .seq r (.many (.seq separator r))

/-- Reads by a rule; `self` reads by a goal. -/
def read (self : G → Scan → Reading) : Rule G → Scan → Reading
  | empty, s => .ok s
  | word letters, s => s.accept (· == .word letters.toList) (.token letters)
  | mark characters, s => s.accept (· == .mark characters.toList) (.token characters)
  | name kind except, s =>
    s.accept (fun
      | .word w => !except.contains (String.ofList w)
      | _ => false) kind
  | literal token kind, s => s.accept (· == token) kind
  | regex, s => s.acceptRegex
  | templateText, s => .ok s.passTemplateText
  | substitutionStart, s => s.acceptSubstitution
  | seq first second, s => (first.read self s).bind (second.read self)
  | choice first second, s =>
    match first.read self s with
    | .ok next => .ok next
    | .error reach => second.read self { s with reach := reach }
  | many rule, s => .ok (s.repeatedly (rule.read self) (s.rest.length + 1))
  | ahead rule, s =>
    match rule.read self s with
    | .ok _ => .ok s
    | .error reach => .error reach
  | notAhead rule, s =>
    match rule.read self s with
    | .ok _ => .error s.refuse
    | .error _ => .ok s
  | node kind rule, s =>
    let s := s.pushComments
    (rule.read self { s with children := [] }).map (s.close · kind s.next.start)
  | wrap kind rule, s =>
    match s.children with
    | last :: earlier =>
      (rule.read self { s with children := [last] }).map
        ({ s with children := earlier }.close · kind last.start)
    | [] => .error s.refuse
  | part field rule, s =>
    (rule.read self s).map fun next =>
      match next.children with
      | last :: earlier => { next with children := last.withField field :: earlier }
      | [] => next
  | breaking breaks rule, s =>
    (rule.read self { s with breaks := breaks }).map ({ · with breaks := s.breaks })
  | goesOn inExpression, s =>
    if s.breaks && s.endsStatement inExpression then .error s.refuse else .ok s
  | sameLine, s => if s.breaks && s.next.gap.isBroken then .error s.refuse else .ok s
  | semicolon inExpression, s => s.acceptSemicolon inExpression
  | lenient rule, s =>
    (rule.read self { s with isLenient := true }).map ({ · with isLenient := s.isLenient })
  | mended rule, s =>
    if s.isLenient then
      match rule.read self { s with isLenient := false } with
      | .ok next => .ok { next with isLenient := true }
      | .error _ => (rule.read self s).bind fun next =>
        if next.isMended then .ok next else .error next.refuse
    else rule.read self s
  | inLenient, s => if s.isLenient then .ok s else .error s.refuse
  | missing kind, s => if s.isLenient then .ok (s.pushMissing kind) else .error s.refuse
  | finish, s => if s.next.token == .finish then .ok s else .error s.refuse
  | skipped stop rule, s => s.skip (rule.read self) stop
  | skippedTo stop, s => if s.isLenient then s.skipTo stop else .error s.refuse
  | goal g, s => self g s

end Rule

/-- Reads by a goal of a grammar, whose goals may be nested `fuel` deep. -/
def readGoal {G : Type} (grammar : G → Rule G) : Nat → G → Scan → Reading
  | 0, _, s => .error s.reach
  | fuel + 1, g, s => (grammar g).read (readGoal grammar fuel) s

end ServiceScaffold.Syntax
