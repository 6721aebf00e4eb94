import ServiceScaffold.Proofs.Template.Evaluation

/-!
# Templates of texts, values, conditions and loops

Most templates only write texts and values, some of them under conditions or in loops over lists.
What such a template writes depends on a few names alone, and it can be computed without a scope.

* `Pattern` : a template of this kind, without the lines of its parts;
* `Pattern.text?` : what it writes, for names with values;
* `execAll_isRead` : statements that are read as a pattern add its text to the output;
* `render_pattern` : **a template that is read as a pattern becomes the text of the pattern**;
* `attribute?_ofJson` : the members of data are its fields.
-/

namespace ServiceScaffold.Template

/-! ### Patterns -/

/-- Where a value is found: a name, or a member of what is found somewhere. -/
inductive Place where
  | name (id : String)
  | member (p : Place) (field : String)
  deriving DecidableEq

/-- What a template writes. -/
inductive Pattern where
  | done
  | text (s : String) (rest : Pattern)
  | value (p : Place) (rest : Pattern)
  /-- One of two patterns: the first if the value is true, or if it is not and `negated`. -/
  | branch (negated : Bool) (p : Place) (yes no rest : Pattern)
  /-- A pattern for each item of a value. -/
  | each (id : String) (p : Place) (body rest : Pattern)
  deriving DecidableEq

/-- The expression gives what is found at the place. -/
def Place.isRead : Place → Expr → Bool
  | .name id, .name _ other => id == other
  | .member p field, .member _ e other => field == other && p.isRead e
  | _, _ => false

/-- The condition asks for what is found at the place. -/
def Place.isAsked (p : Place) : Bool → Expr → Bool
  | true, .not _ e => p.isRead e
  | false, e => p.isRead e
  | _, _ => false

/-- The statements write the pattern. -/
def Pattern.isRead : Pattern → List Stmt → Bool
  | .done, [] => true
  | .text s rest, .data other :: more => s == other && rest.isRead more
  | .value p rest, .output e :: more => p.isRead e && rest.isRead more
  | .branch negated p yes no rest, .branch e thens elses :: more =>
    p.isAsked negated e && yes.isRead thens && no.isRead elses && rest.isRead more
  | .each id p body rest, .loop _ (.mk (.name other) false stmts []) e none :: more =>
    id == other && id != "loop" && p.isRead e && body.isRead stmts && rest.isRead more
  | _, _ => false

/-- A template that writes the pattern. -/
def Pattern.isScript (p : Pattern) : Result Script → Bool
  | .ok script => p.isRead script.statements
  | .error _ => false

/-- Reading a template whose characters are known.  The kernel computes the right side without
taking the characters out of a text one by one. -/
theorem Script.parse_ofList (cs : List Char) : Script.parse (String.ofList cs) =
    let read := lexemesFrom (cs.length + 1) .outside ⟨cs, 1, true⟩
    let parts := ⟨Reader.expression maxLevels, Reader.plain maxLevels, Reader.statement maxLevels⟩
    (Reader.statementsUntil parts [] ⟨read.read, read.problem, 0, [], false⟩).map
      fun (statements, input) => ⟨statements, input.blocks⟩ := by
  rw [parse, lexemes, String.toList_ofList]

/-! ### Their texts -/

/-- What is found at a place. -/
def Place.value? (names : Names) : Place → Option Value
  | .name id => Keyed.lookup id names
  | .member p field => (p.value? names).bind fun v => (partOf v (v.attribute? field)).toOption

/-- The text of a pattern, if all of its values are there. -/
def Pattern.text? (names : Names) : Pattern → Option (List Char)
  | .done => some []
  | .text s rest => (rest.text? names).map (s.toList ++ ·)
  | .value p rest =>
    (p.value? names).bind fun v => (rest.text? names).map (v.display.toList ++ ·)
  | .branch negated p yes no rest =>
    (p.value? names).bind fun v =>
      (if v.isTrue != negated then yes.text? names else no.text? names).bind fun here =>
        (rest.text? names).map (here ++ ·)
  | .each id p body rest =>
    (p.value? names).bind fun v => v.items.toOption.bind fun items =>
      (items.mapM fun item => body.text? ((id, item) :: names)).bind fun texts =>
        (rest.text? names).map (texts.flatten ++ ·)

/-- How many loops of a pattern lie inside each other. -/
def Pattern.nesting : Pattern → Nat
  | .done => 0
  | .text _ rest => rest.nesting
  | .value _ rest => rest.nesting
  | .branch _ _ yes no rest => max (max yes.nesting no.nesting) rest.nesting
  | .each _ _ body rest => max (body.nesting + 1) rest.nesting

/-! ### Scopes -/

/-- The names have these values in the scope. -/
structure Scope.Knows (s : Scope) (names : Names) : Prop where
  lookup {id : String} {v : Value} : Keyed.lookup id names = some v → s.lookup id = some v
  loop : Keyed.lookup "loop" names = none

/-- The scope with another output, after other loops. -/
abbrev Scope.written (s : Scope) (output : String) (loops : Nat) : Scope := { s with output, loops }

/-- The scope with one more frame. -/
abbrev Scope.framed (s : Scope) (top : Frame) : Scope := { s with frames := top :: s.frames }

variable {call : Caller} {s : Scope} {names : Names} {e : Expr} {v : Value}

theorem Scope.Knows.written (h : s.Knows names) (output : String) (loops : Nat) :
    (s.written output loops).Knows names :=
  ⟨h.lookup, h.loop⟩

/-- In a round of a loop the name of the item comes first. -/
theorem Scope.Knows.inRound (h : s.Knows names) {id : String} (hid : id ≠ "loop") (v : Value)
    (loop : Option Loop) :
    (s.framed ⟨[(id, v)], loop, none⟩).Knows ((id, v) :: names) := by
  refine ⟨fun {other w} hother => ?_, by simp [Keyed.lookup, hid, h.loop]⟩
  by_cases heq : id = other
  · subst heq
    obtain rfl : v = w := by simpa [Keyed.lookup] using hother
    simp [Scope.lookup, Frame.lookup, Keyed.lookup]
  · have hnames : Keyed.lookup other names = some w := by simpa [Keyed.lookup, heq] using hother
    have hloop : other ≠ "loop" := by
      rintro rfl
      cases h.loop.symm.trans hnames
    have houter := h.lookup hnames
    unfold Scope.lookup at houter ⊢
    simpa [Frame.lookup, Keyed.lookup, heq, hloop] using houter

/-! ### Evaluation -/

theorem eval_isRead (call : Caller) {p : Place} (h : p.isRead e = true) (hs : s.Knows names)
    (hv : p.value? names = some v) : e.eval call s = .ok (v, s) := by
  induction p generalizing e v with
  | name id =>
    cases e with
    | name line other =>
      obtain rfl : id = other := by simpa [Place.isRead] using h
      exact eval_name line (hs.lookup hv)
    | _ => cases h
  | member p field ih =>
    cases e with
    | member line e other =>
      obtain ⟨rfl, hp⟩ : field = other ∧ p.isRead e = true := by simpa [Place.isRead] using h
      obtain ⟨w, hw, hpart⟩ := Option.bind_eq_some_iff.1 hv
      rw [Expr.eval]
      simp only [bind, StateT.bind, ih hp hw, Except.bind]
      rcases hresult : partOf w (w.attribute? field) with f | u
      · simp [hresult, Except.toOption] at hpart
      · obtain rfl : u = v := by simpa [hresult, Except.toOption] using hpart
        rfl
    | _ => cases h

/-- A condition asks for what is found at a place. -/
theorem eval_isAsked (call : Caller) {p : Place} {negated : Bool} (h : p.isAsked negated e = true)
    (hs : s.Knows names) (hv : p.value? names = some v) :
    ∃ w, e.eval call s = .ok (w, s) ∧ w.isTrue = (v.isTrue != negated) := by
  cases negated with
  | false => exact ⟨v, eval_isRead call h hs hv, by simp⟩
  | true =>
    cases e with
    | not line e =>
      refine ⟨.bool !v.isTrue, ?_, by simp [Value.isTrue]⟩
      have heval := eval_isRead call h hs hv
      rw [Expr.eval]
      simp only [bind, StateT.bind, heval, Except.bind]
      rfl
    | _ => cases h

theorem exec_branch {w : Value} {thens elses : List Stmt} (h : e.eval call s = .ok (w, s)) :
    (Stmt.branch e thens elses).exec call s =
      execAll call (if w.isTrue then thens else elses) s := by
  rw [Stmt.exec]
  simp only [bind, StateT.bind, h, Except.bind]
  split <;> rfl

/-- An evaluation goes on with what has come out. -/
theorem bind_of_ok {α β : Type} {m : Eval α} {next : α → Eval β} {s' : Scope} {a : α}
    (h : m s = .ok (a, s')) : (m >>= next) s = next a s' := by
  simp only [bind, StateT.bind, h, Except.bind]

theorem inFrame_of_ok {α : Type} {m : Eval α} {frame : Frame} {s' : Scope} {a : α}
    (hroom : s.depth + s.frames.length ≤ maxDepth) (h : m (s.framed frame) = .ok (a, s')) :
    Eval.inFrame frame m s = .ok (a, { s' with frames := s'.frames.tail }) := by
  have hget : (get : Eval Scope) s = .ok (s, s) := rfl
  have hpush : (modify fun s : Scope => { s with frames := frame :: s.frames } : Eval Unit) s =
      .ok ((), s.framed frame) := rfl
  unfold Eval.inFrame
  rw [bind_of_ok hget, bind_of_ok hget, if_neg (Nat.not_lt.2 hroom)]
  exact (bind_of_ok hpush).trans (bind_of_ok h)

/-! ### Texts that are added -/

/-- The statements add a text to the output of the scope, and change nothing else but the number of
loops. -/
def Adds (call : Caller) (stmts : List Stmt) (s : Scope) (text : List Char) : Prop :=
  ∃ loops, execAll call stmts s = .ok ((), s.written (s.output ++ String.ofList text) loops)

theorem adds_nil (call : Caller) (s : Scope) : Adds call [] s [] :=
  ⟨s.loops, by rw [execAll_nil]; simp [Scope.written]⟩

theorem Adds.cons {st : Stmt} {stmts : List Stmt} {here others : List Char} {loops : Nat}
    (h : st.exec call s = .ok ((), s.written (s.output ++ String.ofList here) loops))
    (hothers : ∀ output loops, Adds call stmts (s.written output loops) others) :
    Adds call (st :: stmts) s (here ++ others) := by
  obtain ⟨more, hmore⟩ := hothers (s.output ++ String.ofList here) loops
  refine ⟨more, ?_⟩
  rw [execAll_cons _ h, hmore, String.ofList_append, ← String.append_assoc]

/-- The rounds of a loop add what its body adds for the items, one after the other. -/
theorem turns_adds {body : List Stmt} {x : String} {items : List Value} {texts : List (List Char)}
    (h : List.Forall₂ (fun item text => ∀ loop output loops,
      Adds call body ((s.framed ⟨[(x, item)], loop, none⟩).written output loops) text) items texts)
    (again : Option (Nat × Rounds)) (id : Nat) (length : Option Nat) (depth index : Nat)
    (previous : Value) (top : Frame) (output : String) (loops : Nat) : ∃ top' loops',
      turns (fun item => do assignTo call item (.name x); execAll call body) again id length depth
        index previous items ((s.framed top).written output loops) =
      .ok ((), (s.framed top').written (output ++ String.ofList texts.flatten) loops') := by
  induction h generalizing index previous top output loops with
  | nil =>
    refine ⟨top, loops, ?_⟩
    have hnothing : output ++ String.ofList ([] : List (List Char)).flatten = output := by simp
    rw [turns, hnothing]
    rfl
  | @cons item text items texts first _ ih =>
    let loop : Option Loop :=
      some ⟨some (.loop id index length depth previous (items.headD .undefined)), again, depth⟩
    obtain ⟨loops', hbody⟩ := first loop output loops
    obtain ⟨top', loops'', hothers⟩ := ih (index + 1) item ⟨[(x, item)], loop, none⟩
      (output ++ String.ofList text) loops'
    refine ⟨top', loops'', ?_⟩
    have hstart : (modify (·.updateTop fun _ => ⟨[], loop, none⟩) : Eval Unit)
        ((s.framed top).written output loops) =
        .ok ((), (s.framed ⟨[], loop, none⟩).written output loops) := rfl
    have hassign : assignTo call item (.name x) ((s.framed ⟨[], loop, none⟩).written output loops) =
        .ok ((), (s.framed ⟨[(x, item)], loop, none⟩).written output loops) := by
      rw [assignTo]
      rfl
    rw [turns, bind_of_ok hstart, bind_of_ok ((bind_of_ok hassign).trans hbody), hothers,
      List.flatten_cons, String.ofList_append, String.append_assoc]

/-- A loop adds what its body adds for the items, one after the other. -/
theorem exec_loop {body : List Stmt} {x : String} {items : List Value}
    {texts : List (List Char)} (line : Nat) (he : e.eval call s = .ok (v, s))
    (hitems : v.items = .ok items)
    (hroom : s.depth + s.frames.length ≤ maxDepth)
    (h : List.Forall₂ (fun item text => ∀ loop output loops,
      Adds call body ((s.framed ⟨[(x, item)], loop, none⟩).written output loops) text)
      items texts) :
    ∃ loops, (Stmt.loop line (.mk (.name x) false body []) e none).exec call s =
      .ok ((), s.written (s.output ++ String.ofList texts.flatten) loops) := by
  have hlift : Eval.lift line v.items s = .ok (items, s) := by rw [hitems]; rfl
  obtain ⟨depth, hdepth⟩ : ∃ depth, loopDepth s = .ok (depth, s) := by
    unfold loopDepth
    have hget : (get : Eval Scope) s = .ok (s, s) := rfl
    rw [bind_of_ok hget]
    rcases s.loop with _ | ⟨state, again | again, depth⟩ <;> exact ⟨_, rfl⟩
  have hnew : newLoop s = .ok (s.loops, s.written s.output (s.loops + 1)) := rfl
  obtain ⟨top, loops, hturns⟩ := turns_adds h none s.loops v.length? depth 0 .undefined
    ⟨[], some ⟨none, none, depth⟩, none⟩ s.output (s.loops + 1)
  have hframe := inFrame_of_ok (s := s.written s.output (s.loops + 1)) hroom hturns
  have hlocated : Eval.located line (Eval.inFrame ⟨[], some ⟨none, none, depth⟩, none⟩
      (turns (fun item => do assignTo call item (.name x); execAll call body) none s.loops v.length?
        depth 0 .undefined items)) (s.written s.output (s.loops + 1)) =
      .ok ((), s.written (s.output ++ String.ofList texts.flatten) loops) := by
    rw [Eval.located, hframe]
    rfl
  refine ⟨loops, ?_⟩
  rw [Stmt.exec, bind_of_ok he, bind_of_ok hlift]
  dsimp only
  rw [Rounds.exec, bind_of_ok hdepth, bind_of_ok hnew]
  simp only [Bool.false_eq_true, if_false]
  rw [bind_of_ok hlocated]
  split
  · exact execAll_nil call _
  · rfl

theorem forall₂_of_mapM {α β : Type} {f : α → Option β} {as : List α} {bs : List β}
    (h : as.mapM f = some bs) : List.Forall₂ (fun a b => f a = some b) as bs := by
  induction as generalizing bs with
  | nil =>
    obtain rfl : bs = [] := by simpa using h.symm
    exact .nil
  | cons a as ih =>
    obtain ⟨b, hb, rest, hrest, rfl⟩ : ∃ b, f a = some b ∧ ∃ rest, as.mapM f = some rest ∧
        b :: rest = bs := by simpa [List.mapM_cons, Option.bind_eq_some_iff] using h
    exact .cons hb (ih hrest)

/-- What a loop in a pattern is read from. -/
theorem isRead_each {x : String} {p : Place} {body rest : Pattern} {stmts : List Stmt}
    (h : (Pattern.each x p body rest).isRead stmts = true) : x ≠ "loop" ∧ ∃ line e inner more,
      stmts = .loop line (.mk (.name x) false inner []) e none :: more ∧ p.isRead e = true ∧
        body.isRead inner = true ∧ rest.isRead more = true := by
  unfold Pattern.isRead at h
  split at h
  all_goals try cases ‹Pattern.each x p body rest = _›
  · rename_i line other inner e more
    simp only [Bool.and_eq_true, beq_iff_eq, bne_iff_ne] at h
    obtain ⟨⟨⟨⟨rfl, hx⟩, hp⟩, hbody⟩, hmore⟩ := h
    exact ⟨hx, line, e, inner, more, rfl, hp, hbody, hmore⟩
  · cases h

/-- Statements that are read as a pattern add its text to the output. -/
theorem execAll_isRead {p : Pattern} {stmts : List Stmt} {text : List Char}
    (h : p.isRead stmts = true) (hs : s.Knows names)
    (hroom : s.depth + s.frames.length + p.nesting ≤ maxDepth) (htext : p.text? names = some text) :
    Adds call stmts s text := by
  induction p generalizing stmts s names text with
  | done =>
    cases stmts with
    | nil =>
      obtain rfl := Option.some.inj htext
      exact adds_nil call s
    | cons => cases h
  | text t rest ih =>
    obtain ⟨_, hrest, rfl⟩ := Option.map_eq_some_iff.1 htext
    rcases stmts with _ | ⟨st, more⟩
    · cases h
    cases st with
    | data other =>
      obtain ⟨rfl, hmore⟩ : t = other ∧ rest.isRead more = true := by simpa [Pattern.isRead] using h
      have hhere : (Stmt.data t).exec call s =
          .ok ((), s.written (s.output ++ String.ofList t.toList) s.loops) := by
        rw [exec_data, String.ofList_toList]
      exact .cons hhere fun output loops => ih hmore (hs.written output loops) hroom hrest
    | _ => cases h
  | value p rest ih =>
    obtain ⟨v, hv, _, hrest, rfl⟩ : ∃ v, p.value? names = some v ∧ ∃ others,
        rest.text? names = some others ∧ v.display.toList ++ others = text := by
      simpa [Pattern.text?, Option.bind_eq_some_iff] using htext
    rcases stmts with _ | ⟨st, more⟩
    · cases h
    cases st with
    | output e =>
      obtain ⟨hp, hmore⟩ : p.isRead e = true ∧ rest.isRead more = true := by
        simpa [Pattern.isRead] using h
      have hhere : (Stmt.output e).exec call s =
          .ok ((), s.written (s.output ++ String.ofList v.display.toList) s.loops) := by
        rw [exec_output (eval_isRead call hp hs hv), String.ofList_toList]
      exact .cons hhere fun output loops => ih hmore (hs.written output loops) hroom hrest
    | _ => cases h
  | branch negated p yes no rest ihyes ihno ih =>
    simp only [Pattern.nesting] at hroom
    obtain ⟨v, hv, here, hhere, _, hrest, rfl⟩ : ∃ v, p.value? names = some v ∧ ∃ here,
        (if v.isTrue != negated then yes.text? names else no.text? names) = some here ∧ ∃ others,
        rest.text? names = some others ∧ here ++ others = text := by
      simpa [Pattern.text?, Option.bind_eq_some_iff] using htext
    rcases stmts with _ | ⟨st, more⟩
    · cases h
    cases st with
    | branch e thens elses =>
      obtain ⟨⟨⟨hp, hyes⟩, hno⟩, hmore⟩ : ((p.isAsked negated e = true ∧ yes.isRead thens = true) ∧
          no.isRead elses = true) ∧ rest.isRead more = true := by simpa [Pattern.isRead] using h
      obtain ⟨w, hw, htrue⟩ := eval_isAsked call hp hs hv
      obtain ⟨loops, hchosen⟩ : Adds call (if w.isTrue then thens else elses) s here := by
        rw [htrue]
        split_ifs at hhere ⊢
        · exact ihyes hyes hs (by omega) hhere
        · exact ihno hno hs (by omega) hhere
      exact .cons ((exec_branch hw).trans hchosen) fun output loops =>
        ih hmore (hs.written output loops) (by simpa using by omega) hrest
    | _ => cases h
  | each x p body rest ihbody ih =>
    simp only [Pattern.nesting] at hroom
    obtain ⟨v, hv, items, hitems, texts, htexts, _, hrest, rfl⟩ : ∃ v, p.value? names = some v ∧
        ∃ items, v.items.toOption = some items ∧ ∃ texts,
        items.mapM (fun item => body.text? ((x, item) :: names)) = some texts ∧ ∃ others,
        rest.text? names = some others ∧ texts.flatten ++ others = text := by
      simpa [Pattern.text?, Option.bind_eq_some_iff] using htext
    obtain ⟨hx, line, e, inner, more, rfl, hp, hbody, hmore⟩ := isRead_each h
    have hitems : v.items = .ok items := by
      rcases hv : v.items with f | items'
      · simp [hv, Except.toOption] at hitems
      · rw [hv] at hitems
        exact congrArg Except.ok (Option.some.inj hitems)
    have hrounds : List.Forall₂ (fun item text => ∀ loop output loops,
        Adds call inner ((s.framed ⟨[(x, item)], loop, none⟩).written output loops) text)
        items texts := by
      refine (forall₂_of_mapM htexts).imp fun item text hitem loop output loops => ?_
      refine ihbody hbody ((hs.inRound hx item loop).written output loops) ?_ hitem
      simp only [List.length_cons]
      omega
    obtain ⟨loops, hloop⟩ := exec_loop line (eval_isRead call hp hs hv) hitems (by omega) hrounds
    exact .cons hloop fun output loops =>
      ih hmore (hs.written output loops) (by simpa using by omega) hrest

/-! ### Texts part by part -/

namespace Pattern

variable {p : Place} {rest : Pattern} {others : List Char}

theorem text?_done : Pattern.done.text? names = some [] := rfl

theorem text?_text (s : String) (h : rest.text? names = some others) :
    (Pattern.text s rest).text? names = some (s.toList ++ others) := by
  rw [text?, h, Option.map_some]

theorem text?_value (hp : p.value? names = some v) (h : rest.text? names = some others) :
    (Pattern.value p rest).text? names = some (v.display.toList ++ others) := by
  rw [text?, hp, Option.bind_some, h, Option.map_some]

theorem text?_branch_yes {negated : Bool} {yes no : Pattern} {here : List Char}
    (hp : p.value? names = some v) (hv : (v.isTrue != negated) = true)
    (hyes : yes.text? names = some here) (h : rest.text? names = some others) :
    (Pattern.branch negated p yes no rest).text? names = some (here ++ others) := by
  rw [text?, hp, Option.bind_some, if_pos hv, hyes, Option.bind_some, h, Option.map_some]

theorem text?_branch_no {negated : Bool} {yes no : Pattern} {here : List Char}
    (hp : p.value? names = some v) (hv : (v.isTrue != negated) = false)
    (hno : no.text? names = some here) (h : rest.text? names = some others) :
    (Pattern.branch negated p yes no rest).text? names = some (here ++ others) := by
  rw [text?, hp, Option.bind_some, if_neg (Bool.not_eq_true _ ▸ hv), hno, Option.bind_some, h,
    Option.map_some]

end Pattern

/-! ### Data -/

/-- Entries under names. -/
def textEntries (entries : List (String × Value)) : List (Value × Value) :=
  entries.map fun (k, v) => (.text k, v)

theorem compare_text (a b : String) : Value.compare (.text a) (.text b) =
    if a < b then .lt else if a = b then .eq else .gt := by
  rw [Value.compare]
  · rfl
  all_goals simp

theorem lookup_textEntries (name : String) (entries : List (String × Value)) :
    Value.lookup (.text name) (textEntries entries) = Keyed.lookup name entries := by
  induction entries with
  | nil => rfl
  | cons e entries ih =>
    have hcompare : (Value.compare (.text name) (.text e.1) == .eq) = decide (e.1 = name) := by
      rw [compare_text]
      split_ifs with hlt heq
      · have hne : e.1 ≠ name := fun heq => String.lt_irrefl name (heq ▸ hlt)
        simp [hne]
      · simp [heq]
      · simp [Ne.symm heq]
    rw [textEntries, List.map_cons, Value.lookup, hcompare, Keyed.lookup]
    simp only [decide_eq_true_eq]
    split_ifs
    · rfl
    · exact ih

theorem put_textEntries (name : String) (v : Value) (entries : List (String × Value)) :
    Value.put (.text name) v (textEntries entries) =
      textEntries (Keyed.insertSorted (name, v) entries) := by
  induction entries with
  | nil => rfl
  | cons e entries ih =>
    rw [textEntries, List.map_cons, Value.put, Keyed.insertSorted]
    dsimp only
    rw [compare_text]
    split_ifs with hlt heq
    · rfl
    · simp [textEntries, heq]
    · rw [← textEntries, ih]
      rfl

/-- Fields give entries under their names; of equal names the last one counts. -/
theorem exists_ofFields (fields : List (String × Json)) :
    ∃ entries, Value.ofFields fields = textEntries entries ∧
      ∀ name, Keyed.lookup name entries = (Keyed.lookup name fields.reverse).map Value.ofJson := by
  induction fields with
  | nil => exact ⟨[], by rw [Value.ofFields]; rfl, fun name => rfl⟩
  | cons field fields ih =>
    obtain ⟨k, v⟩ := field
    obtain ⟨entries, hentries, hlookup⟩ := ih
    rw [Value.ofFields, hentries, lookup_textEntries, hlookup]
    simp only [List.reverse_cons, Keyed.lookup_append]
    split_ifs with hsome
    · refine ⟨entries, rfl, fun name => ?_⟩
      rw [hlookup]
      by_cases heq : k = name
      · subst heq
        obtain ⟨w, hw⟩ := Option.isSome_iff_exists.1 (by simpa using hsome)
        simp [hw]
      · simp [Keyed.lookup, heq]
    · refine ⟨_, put_textEntries k (.ofJson v) entries, fun name => ?_⟩
      rw [Keyed.lookup_insertSorted, hlookup]
      have hnone : Keyed.lookup k fields.reverse = none := by simpa using hsome
      by_cases heq : name = k
      · subst heq
        simp [hnone, Keyed.lookup]
      · simp [heq, Ne.symm heq, Keyed.lookup]

/-- A member of data is the field of its name. -/
theorem attribute?_ofJson (name : String) (j : Json) :
    (Value.ofJson j).attribute? name = (j.field? name).map Value.ofJson := by
  cases j with
  | obj fields =>
    obtain ⟨entries, hentries, hlookup⟩ := exists_ofFields fields
    rw [Value.ofJson, Value.attribute?, Value.entries?, Option.bind_some, hentries,
      lookup_textEntries, hlookup, Json.field?]
  | _ => simp [Value.ofJson, Value.attribute?, Value.entries?, Json.field?]

theorem ofItems_map {α : Type} (encode : α → Json) (as : List α) :
    Value.ofItems (as.map encode) = as.map fun a => .ofJson (encode a) := by
  induction as with
  | nil => rw [List.map_nil, Value.ofItems, List.map_nil]
  | cons a as ih => rw [List.map_cons, Value.ofItems, ih, List.map_cons]

theorem mapM_of_forall {α β γ : Type} {f : β → Option γ} {g : α → β} {write : α → γ} {as : List α}
    (h : ∀ a ∈ as, f (g a) = some (write a)) : (as.map g).mapM f = some (as.map write) := by
  induction as with
  | nil => rfl
  | cons a as ih =>
    obtain ⟨ha, hothers⟩ := List.forall_mem_cons.1 h
    rw [List.map_cons, List.mapM_cons, ha, ih hothers]
    rfl

/-- The text of a pattern for each item of data. -/
theorem text?_each {α : Type} {encode : α → Json} {write : α → List Char} {as : List α} {x : String}
    {p : Place} {body rest : Pattern} {others : List Char}
    (hp : p.value? names = some (.ofJson (.arr (as.map encode))))
    (h : ∀ a ∈ as, body.text? ((x, .ofJson (encode a)) :: names) = some (write a))
    (hrest : rest.text? names = some others) :
    (Pattern.each x p body rest).text? names = some (as.flatMap write ++ others) := by
  have hitems : (Value.ofJson (.arr (as.map encode))).items.toOption =
      some (as.map fun a => .ofJson (encode a)) := by
    rw [Value.ofJson, ofItems_map]
    rfl
  have htexts := mapM_of_forall (f := fun item => body.text? ((x, item) :: names))
    (g := fun a => .ofJson (encode a)) h
  rw [Pattern.text?, hp, Option.bind_some, hitems, Option.bind_some, htexts, hrest]
  rfl

theorem display_str (s : String) : (Value.ofJson (.str s)).display = s := by
  rw [Value.ofJson, Value.display]

theorem isTrue_str (s : String) : (Value.ofJson (.str s)).isTrue = !s.isEmpty := by
  rw [Value.ofJson, Value.isTrue]

theorem isTrue_bool (b : Bool) : (Value.ofJson (.bool b)).isTrue = b := by
  rw [Value.ofJson, Value.isTrue]

/-! ### Templates -/

/-- **A template that is read as a pattern becomes the text of the pattern**, if the data have the
names that it needs. -/
theorem render_pattern {source : String} {p : Pattern} {data : Json} {text : List Char}
    (h : p.isScript (Script.parse source) = true)
    (hnames : ∀ id v, Keyed.lookup id names = some v → Keyed.lookup id (rootNames data) = some v)
    (hloop : Keyed.lookup "loop" names = none) (hnesting : p.nesting < maxDepth)
    (htext : p.text? names = some text) : render source data = .ok (String.ofList text) := by
  rcases hparse : Script.parse source with f | script
  · rw [hparse] at h
    cases h
  rw [hparse] at h
  have hknows : (Scope.ofNames script.blocks (rootNames data)).Knows names := by
    refine ⟨fun {id v} hid => lookup_ofNames _ (hnames id v hid) ?_, hloop⟩
    rintro rfl
    cases hloop.symm.trans hid
  have hroom : (Scope.ofNames script.blocks (rootNames data)).depth +
      (Scope.ofNames script.blocks (rootNames data)).frames.length + p.nesting ≤ maxDepth := by
    simp only [Scope.ofNames, List.length_cons, List.length_nil]
    omega
  obtain ⟨loops, hexec⟩ : Adds (Caller.ofFuel (2 * maxDepth)) _ _ _ :=
    execAll_isRead h hknows hroom htext
  rw [render, evaluate, hparse]
  simp only [bind, Except.bind, hexec]
  simp [Scope.ofNames, pure, Except.pure]

end ServiceScaffold.Template
