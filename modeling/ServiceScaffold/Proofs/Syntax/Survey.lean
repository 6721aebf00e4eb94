import ServiceScaffold.Proofs.Syntax.Standing

/-!
# What can be told of a rule without a text
-/

namespace ServiceScaffold.Syntax

open Rule

/-! ### Sets of tokens before a place -/

/-- What kinds of tokens may stand before a place. -/
structure Before where
  opening : Bool := false
  arrow : Bool := false
  linking : Bool := false
  closed : Bool := false
  deriving DecidableEq

namespace Before

/-- A token of the kind may stand before the place. -/
def has (b : Before) : Behind → Bool
  | .opening => b.opening
  | .arrow => b.arrow
  | .linking => b.linking
  | .closed => b.closed

/-- Tokens of one kind stand before the place. -/
def only : Behind → Before
  | .opening => { opening := true }
  | .arrow => { arrow := true }
  | .linking => { linking := true }
  | .closed => { closed := true }

/-- What may stand before one of two places. -/
def or (b c : Before) : Before :=
  ⟨b.opening || c.opening, b.arrow || c.arrow, b.linking || c.linking, b.closed || c.closed⟩

/-- Any word. -/
def anyWord : Before := { linking := true, closed := true }

theorem has_only (b : Behind) : (only b).has b = true := by cases b <;> rfl

theorem has_or {b c : Before} {x : Behind} : (b.or c).has x = (b.has x || c.has x) := by
  cases x <;> rfl

theorem has_of_or_eq {b c : Before} {x : Behind} (h : b.or c = b) (hc : c.has x = true) :
    b.has x = true := by
  rw [← h, has_or, hc, Bool.or_true]

/-- A token of one kind may stand before the place if one of two kinds does. -/
theorem has_ite {c d : Prop} [Decidable c] [Decidable d] {x y : Behind} {b : Before} (h : d → c)
    (hb : b.has y = true) : (if c then (only x).or b else b).has (if d then x else y) = true := by
  split_ifs with hc hd hd
  · rw [has_or, has_only, Bool.true_or]
  · rw [has_or, hb, Bool.or_true]
  · exact absurd (h hd) hc
  · exact hb

theorem has_anyWord (w : String) : anyWord.has (wordBehind w) = true := by
  unfold wordBehind
  split_ifs <;> rfl

end Before

/-! ### What is known while a rule is read -/

/-- Where a goal may be read. -/
inductive Level where
  /-- Anywhere in a type. -/
  | outer
  /-- In brackets that are no angle brackets only. -/
  | inner
  /-- In square brackets only. -/
  | deep
  deriving DecidableEq

/-- What is known of a place while the rule of a goal is read: the brackets are those that the rule
has opened. -/
structure Stand extends Nest where
  before : Before
  /-- A token has been read since the goal was started. -/
  moved : Bool
  /-- The node under construction has children. -/
  made : Bool
  deriving DecidableEq

/-- What comes of reading a rule. -/
inductive Verdict where
  /-- Nothing is known. -/
  | unsure
  /-- It fails. -/
  | never
  /-- It fails or not, the same way in both texts. -/
  | alike
  /-- It fails in both texts, or it ends at the same place in both. -/
  | reads (st : Stand)
  deriving DecidableEq

/-- What comes of a choice. -/
def Verdict.join : Verdict → Verdict → Verdict
  | never, v => v
  | v, never => v
  | reads a, reads b =>
    if a.toNest = b.toNest then
      reads ⟨a.toNest, a.before.or b.before, a.moved && b.moved, a.made && b.made⟩
    else alike
  | unsure, _ => unsure
  | _, unsure => unsure
  | _, _ => alike

/-- The brackets behind a mark.  In an expression angle brackets are operators. -/
def Level.turn (level : Level) (n : Nest) (t : Turn) : Option Nest :=
  if n.stack = [] ∧ (t = .opensAngle ∨ t = .closesAngle) then
    if level = .outer then n.turn t else some n
  else n.turn t

namespace Stand

/-- The place may be in no brackets. -/
def isOut (st : Stand) (level : Level) : Bool :=
  level == .outer && st.stack.isEmpty && st.angles == 0

/-- The place may be in no brackets but angle ones. -/
def isBare (st : Stand) (level : Level) : Bool := level == .outer && st.stack.isEmpty

/-- The place is in square brackets. -/
def isDeep (st : Stand) (level : Level) : Bool := level == .deep || st.stack.contains .square

/-- A statement may end here without a semicolon. -/
def mayEnd (st : Stand) : Bool := st.mode == .code && !st.before.opening && !st.before.arrow

/-- A token has been read. -/
def after (st : Stand) (before : Before) : Stand :=
  { st with before := before, moved := true, made := true }

end Stand

/-! ### Goals of types -/

namespace Goal

/-- Where the goal may be read; nothing for goals that stand in no type. -/
def level? : Goal → Option Level
  | .type | .typeOperand | .typePrimary | .typeArguments | .typeParameters | .parameters
  | .objectType | .returnType => some .outer
  | .typeMember | .pattern | .propertyName | .typeAscription | .returnAscription | .decorator
  | .exportStatement => some .inner
  | .expression | .sequence | .operand | .chain | .primary | .arguments => some .deep
  | _ => none

/-- What may stand before the goal. -/
def entry : Goal → Before
  | .type | .typeOperand | .typePrimary | .objectType | .returnType =>
    { opening := true, arrow := true, linking := true }
  | _ => { opening := true, arrow := true, linking := true, closed := true }

/-- The mark that the goal starts with. -/
def opener? : Goal → Option String
  | .typeArguments => some "<"
  | .arguments => some "("
  | .block => some "\x7b"
  | _ => none

/-- The goal starts with a token that stands in no type. -/
def isAbsent : Goal → Bool
  | .decorator | .exportStatement => true
  | _ => false

end Goal

/-! ### Rules that fail -/

namespace Rule

variable {G : Type}

/-- The rule makes up for an absent token, and fails if that is not allowed. -/
def needsLenience : Rule G → Bool
  | missing _ | inLenient | skippedTo _ => true
  | seq (ahead _) second => second.needsLenience
  | seq first _ => first.needsLenience
  | choice first second => first.needsLenience && second.needsLenience
  | node _ rule | part _ rule | breaking _ rule | mended rule => rule.needsLenience
  | _ => false

/-- All rules with which the rule may start are among some. -/
def startsAmong (some : Rule G → Bool) : Rule G → Bool
  | seq first _ => first.startsAmong some
  | choice first second => first.startsAmong some && second.startsAmong some
  | ahead rule | node _ rule | wrap _ rule | part _ rule | breaking _ rule | mended rule =>
    rule.startsAmong some
  | rule => some rule

/-- The rule fails where the next token is one of some marks, or the end of the text. -/
def refuses (marks : List String) : Rule Goal → Bool :=
  startsAmong fun
    | word _ | name _ _ | literal .string _ | literal .number _ | literal .privateName _
    | literal .backQuote _ => true
    | mark m => !marks.contains m
    | goal g => g.opener?.any fun m => !marks.contains m
    | _ => false

/-- The rule fails where the next token starts a line. -/
def refusesLine : Rule Goal → Bool :=
  startsAmong fun
    | word w => w == "extends" || w == "is"
    | mark m => m != "@"
    | _ => false

/-- The marks that the rule reads, if it reads one mark. -/
def marks? : Rule G → Option (List String)
  | mark m => some [m]
  | choice first second => first.marks?.bind fun ms => second.marks?.map (ms ++ ·)
  | _ => none

end Rule

/-- Marks with which neither a type nor an expression goes on. -/
def stopMarks : List String := [")", "]", "\x7d", ";", ","]

/-! ### The survey -/

namespace Stand

/-- What comes of a token that may stand here: `stops` says whether it may stand behind a type, and
`line` whether it may start a line behind one. -/
def accept (st : Stand) (level : Level) (sure stops line : Bool) (next : Verdict) : Verdict :=
  if st.mode == .code && !(st.isOut level && !sure && (stops || line && st.before.closed)) then next
  else .unsure

/-- What kind of token a mark may be. -/
def behindMark (st : Stand) (level : Level) (m : String) : Before :=
  if st.isBare level && joiningMarks.contains m then (Before.only .opening).or (.only (markBehind m))
  else .only (markBehind m)

/-- What kind of token a word may be. -/
def behindWord (st : Stand) (level : Level) (w : String) : Before :=
  if st.isBare level && st.before.closed && joiningWords.contains w then
    (Before.only .opening).or (.only (wordBehind w))
  else .only (wordBehind w)

/-- What kind of token a name may be. -/
def behindName (st : Stand) (level : Level) : Before :=
  if st.isBare level && st.before.closed then (Before.only .opening).or .anyWord else .anyWord

/-- What comes of a mark. -/
def readMark (st : Stand) (level : Level) (m : String) : Verdict :=
  match level.turn st.toNest (turnOf m) with
  | some n => .reads { st.after (st.behindMark level m) with toNest := n }
  | none => .unsure

/-- What is asked of the end of a line has the same answer in both texts. -/
def isEven (st : Stand) (level : Level) (asIs : Bool) : Bool :=
  !asIs || st.isOut level || level != .outer

end Stand

/-- What can be told of a rule without a text.  A mark may not be the end of the text where `sure`,
and line breaks count as they do where the goal was started if `asIs`. -/
def Rule.survey (level : Level) (rank : Nat) : Bool → Bool → Rule Goal → Stand → Verdict
  | _, _, empty, st => .reads st
  | sure, _, word w, st =>
    st.accept level sure false (w != "extends") <|
      if w == "export" || st.isDeep level && Spot.expressionWords.contains w then .never
      else .reads (st.after (st.behindWord level w))
  | sure, _, mark m, st =>
    st.accept level sure ([";", ",", "\x7d"].contains m) (m == "@" || m == "[") <|
      if !st.isBare level && m == "=" || m == "@" || m.toList.head? == some '/' then .never
      else st.readMark level m
  | sure, _, name kind _, st =>
    if kind.isQuiet then
      st.accept level sure false true (.reads (st.after (st.behindName level)))
    else .unsure
  | sure, _, literal .backQuote kind, st =>
    if kind.isQuiet then
      if st.mode = .edge then .reads { st.after (.only .closed) with mode := .code }
      else st.accept level sure false false (.reads { st.after (.only .closed) with mode := .text })
    else .unsure
  | sure, _, literal token kind, st =>
    if kind.isQuiet && (token == .string || token == .number || token == .privateName) then
      st.accept level sure false true (.reads (st.after (.only .closed)))
    else .unsure
  | _, _, regex, st => if st.mode == .code && !st.isOut level then .never else .unsure
  | _, _, templateText, st => if st.mode = .text then .reads { st with mode := .edge } else .unsure
  | _, _, substitutionStart, st =>
    if st.mode = .edge then
      .reads { st.after (.only .opening) with stack := .hole :: st.stack, mode := .code }
    else .unsure
  | sure, asIs, seq first second, st =>
    if (seq first second).needsLenience then .never
    else
      match first with
      | goesOn inExpression =>
        if st.mayEnd && st.isEven level asIs && second.refuses stopMarks &&
            (!st.isOut level || asIs && !inExpression && second.refusesLine) then
          second.survey level rank true asIs st
        else .unsure
      | sameLine =>
        if st.mayEnd && st.isEven level asIs && second.refuses quietMarks && !st.isOut level then
          second.survey level rank sure asIs st
        else .unsure
      | _ =>
        match first.survey level rank sure asIs st with
        | .reads next => second.survey level rank false asIs next
        | .never => .never
        | _ => .unsure
  | sure, asIs, choice first second, st =>
    (first.survey level rank sure asIs st).join (second.survey level rank sure asIs st)
  | sure, asIs, many rule, st =>
    match rule.survey level rank sure asIs { st with moved := false } with
    | .never => .reads st
    | .reads one =>
      let all : Stand := { st with before := st.before.or one.before }
      match rule.survey level rank false asIs { all with moved := false, made := true } with
      | .reads more =>
        if one.toNest = st.toNest ∧ more.toNest = st.toNest ∧ one.moved ∧ more.moved ∧ one.made ∧
            more.made ∧ all.before.or more.before = all.before then .reads all
        else .unsure
      | _ => .unsure
    | _ => .unsure
  | sure, asIs, ahead rule, st =>
    match rule with
    | choice (semicolon _) others =>
      if st.mayEnd && !st.isOut level &&
          others.marks?.any fun ms => ms.contains ")" && ms.contains "]" then .reads st
      else .unsure
    | _ =>
      match rule.survey level rank sure asIs st with
      | .reads _ | .alike => .reads st
      | verdict => verdict
  | sure, asIs, notAhead rule, st =>
    match rule.survey level rank sure asIs st with
    | .unsure => .unsure
    | _ => .reads st
  | sure, asIs, node kind rule, st =>
    match rule.survey level rank sure asIs { st with made := false } with
    | .reads next => if kind.isQuiet then .reads { next with made := true } else .unsure
    | .never => .never
    | _ => .unsure
  | sure, asIs, wrap kind rule, st =>
    if kind.isQuiet && st.made then rule.survey level rank sure asIs st else .unsure
  | sure, asIs, part _ rule, st => rule.survey level rank sure asIs st
  | sure, _, breaking _ rule, st => rule.survey level rank sure false st
  | sure, asIs, mended rule, st => rule.survey level rank sure asIs st
  | _, _, semicolon _, st =>
    if st.mayEnd && st.stack.head? == some .curly then
      .reads { st with before := st.before.or (.only .opening) }
    else .unsure
  | _, _, missing _, _ | _, _, inLenient, _ | _, _, skippedTo _, _ => .never
  | _, asIs, goal g, st =>
    match g.level? with
    | some within =>
      if st.mode = .code ∧ st.isEven level asIs ∧ (st.isOut level → asIs) ∧
          (st.moved ∨ g.rank < rank) ∧ st.before.or g.entry = g.entry ∧
          (within = .inner → !st.isBare level) ∧ (within = .deep → st.isDeep level) then
        if g.isAbsent then .never else .reads (st.after .anyWord)
      else .unsure
    | none =>
      -- a block stands behind an arrow or a bracket
      if g = .block ∧ st.mode = .code ∧ st.isDeep level ∧ !st.before.opening then .never else .unsure
  | _, _, goesOn _, _ | _, _, sameLine, _ | _, _, lenient _, _ | _, _, finish, _
  | _, _, skipped _ _, _ => .unsure

theorem Rule.survey_choice (level : Level) (rank : Nat) (sure asIs : Bool)
    (first second : Rule Goal) (st : Stand) :
    (choice first second).survey level rank sure asIs st =
      (first.survey level rank sure asIs st).join (second.survey level rank sure asIs st) := by
  rw [survey]

namespace Goal

/-- What is known where a goal is started. -/
def start (g : Goal) : Stand := ⟨⟨[], 0, .code⟩, g.entry, false, false⟩

/-- What can be told of a goal. -/
def isSettled (g : Goal) : Bool :=
  g.level?.all fun level =>
    match (grammar g).survey level g.rank false true g.start with
    | .never => g.isAbsent
    | .reads st => !g.isAbsent && st.toNest == ⟨[], 0, .code⟩ && !st.before.opening &&
      !st.before.arrow && st.moved && st.made
    | _ => false

theorem isSettled_all (g : Goal) : g.isSettled := by
  cases g <;> decide +kernel

end Goal

end ServiceScaffold.Syntax
