import Mathlib.Data.List.Dedup
import ServiceScaffold.Proofs.Syntax.Sighting
import ServiceScaffold.Syntax.Grammar

/-!
# Reading foreseen from tokens

What a rule does can often be told from the next tokens alone, wherever they stand and whatever
comes after them.  A `Sign` says what is known of one token, and `Rule.foresee` runs a rule on a
list of signs: it gives all endings that the rule can have, or nothing if the signs do not settle
them.

* `Sign`, `Signs` : what is known of a token, and of the tokens at the start of a text;
* `Rule.foresee`, `foreseeGoal` : the endings of a rule and of a goal on signs;
* `Look.mem_answers` : a test of a token has one of the answers that are foreseen.
-/

namespace ServiceScaffold.Syntax

/-! ### What is known of tokens -/

/-- What a rule asks of a token. -/
inductive Test where
  | isWord (letters : String)
  | isMark (characters : String)
  | isName (except : List String)
  | isToken (token : Token)

/-- The token passes the test. -/
def Test.holds : Test → Token → Bool
  | isWord letters, t => t == .word letters.toList
  | isMark characters, t => t == .mark characters.toList
  | isName except, t =>
    match t with
    | .word w => !except.contains (String.ofList w)
    | _ => false
  | isToken token, t => t == token

/-- What is known of a token. -/
inductive Look where
  /-- It is one of some tokens. -/
  | among (tokens : List Token)
  /-- It is a word, but none of some. -/
  | wordBut (except : List String)
  deriving DecidableEq

/-- The token looks so. -/
def Look.Fits : Look → Token → Prop
  | among tokens, t => t ∈ tokens
  | wordBut except, t => ∃ w, t = .word w ∧ String.ofList w ∉ except

/-- The answers that a test can give for a token. -/
def Look.answers : Look → Test → List Bool
  | among tokens, test => (tokens.map test.holds).dedup
  | wordBut except, .isWord letters => if letters ∈ except then [false] else [false, true]
  | wordBut _, .isMark _ => [false]
  | wordBut except, .isName names =>
    if names.all (except.contains ·) then [true] else [false, true]
  | wordBut _, .isToken token =>
    match token with
    | .word _ => [false, true]
    | _ => [false]

/-- A statement may end before the token without a line break between them. -/
def Look.mayEnd : Look → Bool
  | among tokens => tokens.any fun t => t == .finish || t == .mark ['\x7d']
  | wordBut _ => false

/-- The token may start with a slash. -/
def Look.maySlash : Look → Bool
  | among tokens => tokens.any fun
    | .mark m => m.head? == some '/'
    | _ => false
  | wordBut _ => false

/-- What is known of a token and of what stands before it. -/
structure Sign where
  look : Look
  /-- No line break and no blank that is not of ASCII stands before it, comments aside. -/
  isFlat : Bool
  deriving DecidableEq

/-- What there is to see bears the sign. -/
structure Sign.Fits (g : Sign) (s : Sight) : Prop where
  look : g.look.Fits s.token
  flat : g.isFlat = true → s.isBroken = false ∧ s.isPlain = true

/-- The tokens at the start of a text bear signs, and `k` is left after them. -/
inductive Signs (k : List Char) : List Char → List Sign → Prop where
  | nil : Signs k k []
  | cons {cs : List Char} {g : Sign} {gs : List Sign} (fits : g.Fits (Sight.ofText cs))
      (rest : Signs k (Sight.ofText cs).tail gs) : Signs k cs (g :: gs)

/-- What follows a number of tokens. -/
def afterTokens : Nat → List Char → List Char
  | 0, cs => cs
  | n + 1, cs => afterTokens n (Sight.ofText cs).tail

theorem afterTokens_add (m n : Nat) (cs : List Char) :
    afterTokens (m + n) cs = afterTokens n (afterTokens m cs) := by
  induction m generalizing cs with
  | zero => rw [Nat.zero_add, afterTokens]
  | succ m ih => rw [Nat.succ_add, afterTokens, afterTokens, ih]

/-! ### Endings -/

/-- How a rule ends: it fails, or some signs are left. -/
abbrev Ending := Option (List Sign)

/-- All endings that a rule may have; nothing if they are not settled. -/
abbrev Endings := Option (List Ending)

/-- Goes on from each ending. -/
def goOn (next : Ending → Endings) : List Ending → Endings
  | [] => some []
  | e :: ends => (next e).bind fun here => (goOn next ends).map fun others => (here ++ others).dedup

/-- Goes on where a rule has read something. -/
def afterReading (next : List Sign → Endings) : Ending → Endings
  | none => some [none]
  | some gs => next gs

/-- The endings of a test of the next token, which is read if it passes. -/
def foreseeToken (test : Test) : List Sign → Endings
  | [] => none
  | g :: gs => some ((g.look.answers test).map fun passes => if passes then some gs else none)

/-- The endings of a repetition. -/
def foreseeMany (rule : List Sign → Endings) : Nat → List Sign → Endings
  | 0, _ => none
  | fuel + 1, gs => (rule gs).bind <| goOn fun
    | none => some [some gs]
    | some rest => if rest.length < gs.length then foreseeMany rule fuel rest else none

/-- The endings of the end of a statement without a semicolon. -/
def Sign.ends (g : Sign) (gs : List Sign) : List Ending :=
  if g.isFlat && !g.look.mayEnd then [none] else [none, some gs]

/-- The kind of a node that matters to no schema by itself. -/
def NodeKind.isQuiet (kind : NodeKind) : Bool := kind != .error && kind != .exportStatement

/-- The endings of a rule on signs; `self` gives those of a goal, and `mild` says that absent
tokens are made up for. -/
def Rule.foresee {G : Type} (self : Bool → G → List Sign → Endings) :
    Bool → Rule G → List Sign → Endings
  | _, empty, gs => some [some gs]
  | _, word letters, gs => foreseeToken (.isWord letters) gs
  | _, mark characters, gs => foreseeToken (.isMark characters) gs
  | _, name kind except, gs => if kind.isQuiet then foreseeToken (.isName except) gs else none
  | _, literal token kind, gs =>
    if kind.isQuiet && token != .finish then foreseeToken (.isToken token) gs else none
  | _, regex, gs =>
    match gs with
    | [] => none
    | g :: _ => if g.look.maySlash then none else some [none]
  | _, templateText, _ => none
  | _, substitutionStart, _ => none
  | mild, seq first second, gs =>
    (first.foresee self mild gs).bind (goOn (afterReading (second.foresee self mild)))
  | mild, choice first second, gs =>
    (first.foresee self mild gs).bind <| goOn fun
      | none => second.foresee self mild gs
      | some rest => some [some rest]
  | mild, many rule, gs => foreseeMany (rule.foresee self mild) (gs.length + 1) gs
  | mild, ahead rule, gs =>
    (rule.foresee self mild gs).bind (goOn (afterReading fun _ => some [some gs]))
  | mild, notAhead rule, gs =>
    (rule.foresee self mild gs).bind <| goOn fun
      | none => some [some gs]
      | some _ => some [none]
  | mild, node kind rule, gs =>
    (rule.foresee self mild gs).bind (goOn (afterReading fun rest =>
      if kind.isQuiet && rest.length < gs.length then some [some rest] else none))
  | mild, wrap _ rule, gs =>
    (rule.foresee self mild gs).bind (goOn (afterReading fun _ => none))
  | mild, part _ rule, gs =>
    (rule.foresee self mild gs).bind (goOn (afterReading fun rest =>
      if rest.length < gs.length then some [some rest] else none))
  | mild, breaking _ rule, gs => rule.foresee self mild gs
  | _, goesOn _, gs =>
    match gs with
    | [] => none
    | g :: _ => some (if g.isFlat && !g.look.mayEnd then [some gs] else [none, some gs])
  | _, sameLine, gs =>
    match gs with
    | [] => none
    | g :: _ => some (if g.isFlat then [some gs] else [none, some gs])
  | _, semicolon _, gs =>
    match gs with
    | [] => none
    | g :: rest => some ((g.look.answers (.isMark ";")).flatMap fun passes =>
      if passes then [some rest] else g.ends gs)
  | _, lenient rule, gs => rule.foresee self true gs
  | mild, mended rule, gs =>
    if mild then
      (rule.foresee self false gs).bind (goOn fun
        | none => (rule.foresee self true gs).bind (goOn (afterReading fun _ => none))
        | some _ => none)
    else rule.foresee self false gs
  | mild, inLenient, gs => some [if mild then some gs else none]
  | mild, missing _, _ => if mild then none else some [none]
  | _, finish, gs =>
    match gs with
    | [] => none
    | g :: _ => some ((g.look.answers (.isToken .finish)).map fun passes =>
      if passes then some gs else none)
  | _, skipped _ _, gs =>
    match gs with
    | [] => none
    | g :: _ => if g.look = .among [.finish] then some [none] else none
  | mild, skippedTo _, _ => if mild then none else some [none]
  | mild, goal g, gs => self mild g gs

/-- The endings of a goal of a grammar, whose goals may be nested `fuel` deep. -/
def foreseeGoal {G : Type} (grammar : G → Rule G) : Nat → Bool → G → List Sign → Endings
  | 0, _, _, _ => none
  | fuel + 1, mild, g, gs => (grammar g).foresee (foreseeGoal grammar fuel) mild gs

theorem exists_of_goOn {o : Endings} {next : Ending → Endings} {all : List Ending}
    (h : o.bind (goOn next) = some all) :
    ∃ ends, o = some ends ∧ ∀ e ∈ ends, ∃ here, next e = some here ∧ ∀ x ∈ here, x ∈ all := by
  obtain ⟨ends, rfl, hgo⟩ := Option.bind_eq_some_iff.1 h
  refine ⟨ends, rfl, ?_⟩
  clear h
  induction ends generalizing all with
  | nil => simp
  | cons e ends ih =>
    rw [goOn] at hgo
    obtain ⟨here, hhere, hmore⟩ := Option.bind_eq_some_iff.1 hgo
    obtain ⟨others, hothers, rfl⟩ := Option.map_eq_some_iff.1 hmore
    intro d hd
    obtain rfl | hold := List.mem_cons.1 hd
    · exact ⟨here, hhere, fun x hx => List.mem_dedup.2 (List.mem_append_left _ hx)⟩
    · obtain ⟨later, hlater, hin⟩ := ih hothers d hold
      exact ⟨later, hlater, fun x hx => List.mem_dedup.2 (List.mem_append_right _ (hin x hx))⟩

/-! ### Tests of a token -/

theorem Test.ne_finish {test : Test} {t : Token} (h : test.holds t = true)
    (htoken : test ≠ .isToken .finish) : t ≠ .finish := by
  rintro rfl
  cases test with
  | isWord letters => simp [Test.holds] at h
  | isMark characters => simp [Test.holds] at h
  | isName except => simp [Test.holds] at h
  | isToken token =>
    obtain rfl := beq_iff_eq.1 h
    exact htoken rfl

/-- The answer of a test is among those that are foreseen. -/
theorem Look.mem_answers {look : Look} {t : Token} (h : look.Fits t) (test : Test) :
    test.holds t ∈ look.answers test := by
  cases look with
  | among tokens =>
    rw [answers, List.mem_dedup]
    exact List.mem_map_of_mem h
  | wordBut except =>
    obtain ⟨w, rfl, hw⟩ := h
    cases test with
    | isWord letters =>
      by_cases hletters : letters ∈ except
      · have hne : w ≠ letters.toList := by
          rintro rfl
          rw [String.ofList_toList] at hw
          exact hw hletters
        simp [answers, hletters, Test.holds, hne]
      · rw [answers, if_neg hletters]
        cases Test.holds (.isWord letters) (.word w) <;> simp
    | isMark characters => simp [answers, Test.holds]
    | isName names =>
      by_cases hnames : names.all (except.contains ·) = true
      · have hnot : String.ofList w ∉ names := by
          intro hmem
          have hexcept := List.all_eq_true.1 hnames _ hmem
          exact hw (by simpa using hexcept)
        rw [answers, if_pos hnames]
        simp [Test.holds, hnot]
      · rw [answers, if_neg hnames]
        cases Test.holds (.isName names) (.word w) <;> simp
    | isToken token =>
      cases token with
      | word v =>
        rw [answers]
        cases Test.holds (.isToken (.word v)) (.word w) <;> simp
      | _ => simp [answers, Test.holds]

theorem Look.of_mayEnd {look : Look} {t : Token} (h : look.Fits t) (hend : look.mayEnd = false) :
    t ≠ .finish ∧ t ≠ .mark ['\x7d'] := by
  cases look with
  | among tokens =>
    have hno := List.any_eq_false.1 hend t h
    simpa using hno
  | wordBut except =>
    obtain ⟨w, rfl, -⟩ := h
    simp

theorem Look.of_maySlash {look : Look} {m : List Char} (h : look.Fits (.mark m))
    (hslash : look.maySlash = false) : m.head? ≠ some '/' := by
  cases look with
  | among tokens =>
    have hno := List.any_eq_false.1 hslash _ h
    simpa using hno
  | wordBut except =>
    obtain ⟨w, hw, -⟩ := h
    cases hw

/-- A text that starts with a slash starts with a mark that does. -/
theorem exists_mark_of_slash (cs : List Char) :
    ∃ m, (Token.ofText ('/' :: cs)).1 = .mark m ∧ m.head? = some '/' := by
  have hname : name? ('/' :: cs) = none := by
    rw [name?, nameEscape?_of_ne (by simp)]
    rfl
  have hnumber : number? ('/' :: cs) = none := rfl
  rw [Token.ofText]
  simp only [hname, hnumber]
  rw [if_neg (by decide), if_neg (by decide), if_neg (by decide), if_neg (by simp)]
  rcases hfound : longMarks.find? (·.isPrefixOf ('/' :: cs)) with _ | found
  · exact ⟨['/'], by simp only [hfound]; rfl, rfl⟩
  · have hmarks : ∀ m ∈ longMarks, m ≠ [] := by decide
    refine ⟨found, by simp only [hfound], ?_⟩
    have hprefix := List.find?_some hfound
    obtain ⟨rest, hrest⟩ := List.isPrefixOf_iff_prefix.1 hprefix
    rcases found with _ | ⟨c, found⟩
    · exact absurd rfl (hmarks _ (List.mem_of_find?_eq_some hfound))
    · rw [(List.cons.inj hrest).1]
      rfl

end ServiceScaffold.Syntax
