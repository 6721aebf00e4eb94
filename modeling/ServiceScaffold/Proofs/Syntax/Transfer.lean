import ServiceScaffold.Proofs.Syntax.RulesAlike

/-!
# Types read alike in two texts

Where the same tokens stand in the same places, a goal for types ends at the same place in both
texts, or fails in both.

* `CanStart`, `HasRead` : where a goal starts in both texts, and where it ends;
* `Rule.isTold` : what has been told of a rule holds of reading both texts by it;
* `readsAlike_readGoal` : **a goal is read alike in texts that are twins**.
-/

namespace ServiceScaffold.Syntax

open Rule

variable {T : Pair} {F : Frame} {asIs : Bool} {st : Stand} {p : Spot} {s s' : Scan} {r r' : Reading}
  {v : Verdict}

/-! ### Goals -/

/-- The goal may be read in both texts. -/
structure CanStart (T : Pair) (g : Goal) (level : Level) (p : Spot) (s s' : Scan) : Prop where
  alike : Alike T p s s'
  mode : p.mode = .code
  entry : g.entry.has p.behind
  inner : level ≠ .outer → p.stack ≠ []
  deep : level = .deep → p.isDeep
  breaks : p.isOut = false → s.breaks = s'.breaks
  lines : p.isOut = true → s.breaks = true

/-- Both texts have been read as far as the same place, in the brackets where reading started. -/
structure HasRead (T : Pair) (p : Spot) (s s' : Scan) (q : Spot) (t t' : Scan) : Prop where
  alike : Alike T q t t'
  nest : q.toNest = p.toNest
  behind : Before.anyWord.has q.behind
  left_lt : t.rest.length < s.rest.length
  right_lt : t'.rest.length < s'.rest.length
  breaks : t.breaks = s.breaks
  breaks' : t'.breaks = s'.breaks
  made : t.children ≠ []
  made' : t'.children ≠ []

/-- The goal is read alike in both texts. -/
def ReadsAlike (T : Pair) (g : Goal) (p : Spot) (s s' : Scan) (r r' : Reading) : Prop :=
  r.Failed ∧ r'.Failed ∨
    g.isAbsent = false ∧ ∃ q t t', r = .ok t ∧ r' = .ok t' ∧ HasRead T p s s' q t t'

/-- Goals are read alike in both texts, behind the start of a goal or if their rank is lower. -/
structure GoalsAlike (T : Pair) (F : Frame) (rank : Nat) (read read' : Goal → Scan → Reading) :
    Prop where
  opens : OpenWith read
  opens' : OpenWith read'
  alike {g : Goal} {level : Level} {p : Spot} {s s' : Scan} : g.level? = some level →
    CanStart T g level p s s' → s.rest.length ≤ F.room → s'.rest.length ≤ F.room' →
    (s.rest.length < F.room ∧ s'.rest.length < F.room' ∨ g.rank < rank) →
    ReadsAlike T g p s s' (read g s) (read' g s')

section

variable {rank : Nat} {self self' : Goal → Scan → Reading}

theorem GoalsAlike.behind (h : GoalsAlike T F rank self self') (hroom : s.rest.length ≤ F.room)
    (hroom' : s'.rest.length ≤ F.room') : GoalsAlike T (F.behind s s') rank self self' := by
  refine ⟨h.opens, h.opens', ?_⟩
  intro _ _ _ _ _ hlevel hstart hu hu' hmoved
  refine h.alike hlevel hstart (hu.trans hroom) (hu'.trans hroom') (hmoved.imp_left fun hlt => ?_)
  exact ⟨lt_of_lt_of_le hlt.1 hroom, lt_of_lt_of_le hlt.2 hroom'⟩

theorem Frame.IsSound.behind (hF : F.IsSound) : (F.behind s s').IsSound :=
  ⟨hF.inner, hF.deep, hF.breaks, hF.lines⟩

/-- A goal of a type is read alike. -/
theorem Fits.holds_goal (hF : F.IsSound) (hgoals : GoalsAlike T F rank self self')
    (h : Fits T F asIs st p s s') {g : Goal} {within : Level} (hlevel : g.level? = some within)
    (hmode : st.mode = .code) (heven : st.isEven F.level asIs = true)
    (hlines : st.isOut F.level = true → asIs = true)
    (hrank : st.moved = true ∨ g.rank < rank) (hentry : st.before.or g.entry = g.entry)
    (hinner : within = .inner → st.isBare F.level = false)
    (hdeep : within = .deep → st.isDeep F.level = true) :
    (if g.isAbsent then Verdict.never else .reads (st.after .anyWord)).Holds T F asIs (self g s)
      (self' g s') := by
  have hstart : CanStart T g within p s s' := by
    refine ⟨h.alike, h.stands.mode.trans hmode, ?_, fun hlevel => ?_,
      fun hlevel => h.stands.isDeep hF (hdeep hlevel), h.breaks_eq hF heven, fun hout => ?_⟩
    · rw [← hentry, Before.has_or, h.stands.before, Bool.true_or]
    · cases within with
      | outer => exact absurd rfl hlevel
      | inner =>
        intro hstack
        have hbare := h.stands.isBare hF (List.isEmpty_iff.2 hstack)
        rw [hinner rfl] at hbare
        cases hbare
      | deep => exact Spot.stack_ne_nil_of_isDeep (h.stands.isDeep hF (hdeep rfl))
    · exact h.breaks_of_isOut hF (hlines (h.stands.isOut hF hout)) hout
  obtain ⟨hleft, hright⟩ | ⟨hpresent, q, t, t', ht, ht', hread⟩ := hgoals.alike hlevel hstart
    h.room.1 h.room.2 (hrank.imp_left h.moved)
  · exact Verdict.holds_of_failed hleft hright _
  · rw [hpresent, if_neg Bool.false_ne_true]
    have hlt := lt_of_lt_of_le hread.left_lt h.room.1
    have hlt' := lt_of_lt_of_le hread.right_lt h.room.2
    refine .inr ⟨q, t, t', ht, ht', ⟨hread.alike, ⟨?_, hread.behind⟩,
      fun _ => ⟨hread.made, hread.made'⟩, ⟨hlt.le, hlt'.le⟩, fun _ => ⟨hlt, hlt'⟩, ?_, ?_⟩⟩
    · rw [hread.nest]
      exact h.stands.toOver
    · rw [hread.breaks, hread.breaks']
      exact h.kept
    · rw [hread.breaks, hread.breaks']
      exact h.even

/-- No block of statements starts within a type. -/
theorem Fits.holds_block (hF : F.IsSound) (hgoals : GoalsAlike T F rank self self')
    (h : Fits T F asIs st p s s') (hmode : st.mode = .code) (hdeep : st.isDeep F.level = true)
    (hbefore : st.before.opening = false) :
    Verdict.never.Holds T F asIs (self .block s) (self' .block s') := by
  have hin := h.stands.isDeep hF hdeep
  obtain hstop | ⟨t, p', hat⟩ := h.alike.twins.code (h.stands.mode.trans hmode)
  · exact absurd (Spot.isOut_iff.1 hstop.out).1 (Spot.stack_ne_nil_of_isDeep hin)
  · have hbehind : p.behind ≠ .opening := by
      intro hopening
      have hhas := h.stands.before
      rw [hopening] at hhas
      exact absurd hhas (by simp [Before.has, hbefore])
    have hne : t ≠ .mark "\x7b".toList := by
      rintro rfl
      have hallowed := hat.allowed
      simp [Spot.forbids, hin, hbehind] at hallowed
    exact ⟨hgoals.opens _ _ s rfl (by rw [h.alike.left.token, hat.left]; exact hne),
      hgoals.opens' _ _ s' rfl (by rw [h.alike.right.token, hat.right]; exact hne)⟩

end

/-! ### The survey -/

section

variable {rank : Nat} {self self' : Goal → Scan → Reading}

/-- What a type stops at is a mark or the end. -/
theorem Token.stops_ne {t : Token} (h : t.stops) :
    (∀ w, t ≠ .word w) ∧ t ≠ .string ∧ t ≠ .number ∧ t ≠ .privateName ∧ t ≠ .backQuote := by
  obtain rfl | rfl | rfl | rfl := h <;> simp

/-- A word. -/
theorem Fits.holds_word (hF : F.IsSound) (h : Fits T F asIs st p s s') {sure : Bool}
    (hsure : sure = true → ¬AtStop T.k T.k' p s.rest s'.rest) (w : String) :
    ((word w : Rule Goal).survey F.level rank sure asIs st).Holds T F asIs ((word w).read self s)
      ((word w).read self' s') := by
  refine h.holds_accept hF hsure rfl (fun _ t ht => ?_) (fun hline t ht => ?_)
    fun t p' htest hallowed hnext => ?_
  · exact beq_eq_false_iff_ne.2 ((Token.stops_ne ht).1 _)
  · refine beq_eq_false_iff_ne.2 ?_
    rintro rfl
    simp only [bne_eq_false_iff_eq] at hline
    subst hline
    revert ht
    decide
  · obtain rfl := beq_iff_eq.1 htest
    obtain rfl := Option.some.inj hnext
    rw [String.ofList_toList]
    split_ifs with hno
    · -- such a word is not allowed here
      refine absurd hallowed ?_
      simp only [Spot.forbids, String.ofList_toList]
      simp only [Bool.or_eq_true, Bool.and_eq_true, beq_iff_eq] at hno
      obtain rfl | ⟨hdeep, hword⟩ := hno
      · simp
      · rw [h.stands.isDeep hF hdeep, hword, Bool.true_and, Bool.or_true]
        simp
    · exact .inr ⟨_, rfl, ⟨h.stands.stack, h.stands.angles, h.stands.mode⟩,
        h.stands.behindWord hF w⟩

/-- A mark. -/
theorem Fits.holds_mark (hF : F.IsSound) (h : Fits T F asIs st p s s') {sure : Bool}
    (hsure : sure = true → ¬AtStop T.k T.k' p s.rest s'.rest) (m : String) :
    ((mark m : Rule Goal).survey F.level rank sure asIs st).Holds T F asIs ((mark m).read self s)
      ((mark m).read self' s') := by
  refine h.holds_accept hF hsure rfl (fun hstops t ht => ?_) (fun hline t ht => ?_)
    fun t p' htest hallowed hnext => ?_
  · refine beq_eq_false_iff_ne.2 ?_
    rintro rfl
    have hm : m = ";" ∨ m = "," ∨ m = "\x7d" := by
      obtain hmark | hmark | hmark | hmark := ht
      · exact .inl (String.toList_inj.1 (Token.mark.inj hmark))
      · exact .inr (.inl (String.toList_inj.1 (Token.mark.inj hmark)))
      · exact .inr (.inr (String.toList_inj.1 (Token.mark.inj hmark)))
      · cases hmark
    obtain rfl | rfl | rfl := hm <;> simp at hstops
  · refine beq_eq_false_iff_ne.2 ?_
    rintro rfl
    simp only [Bool.or_eq_false_iff, beq_eq_false_iff_ne, ne_eq, ← String.toList_inj] at hline
    obtain hat | hbracket := Bool.or_eq_true_iff.1 ht
    · exact hline.1 (beq_iff_eq.1 hat)
    · exact hline.2 (beq_iff_eq.1 hbracket)
  · obtain rfl := beq_iff_eq.1 htest
    split_ifs with hno
    · refine absurd hallowed ?_
      simp only [Bool.or_eq_true, Bool.and_eq_true, Bool.not_eq_true', beq_iff_eq] at hno
      simp only [Spot.forbids]
      obtain (⟨hbare, rfl⟩ | rfl) | hslash := hno
      · simp [h.stands.isBare_eq_false hF hbare]
      · simp
      · simp [hslash]
    · exact h.stands.readMark hF hnext

theorem Fits.holds_name (hF : F.IsSound) (h : Fits T F asIs st p s s') {sure : Bool}
    (hsure : sure = true → ¬AtStop T.k T.k' p s.rest s'.rest) (kind : NodeKind)
    (except : List String) :
    ((name kind except : Rule Goal).survey F.level rank sure asIs st).Holds T F asIs
      ((name kind except).read self s) ((name kind except).read self' s') := by
  simp only [survey]
  split_ifs with hkind
  swap
  · trivial
  refine h.holds_accept hF hsure hkind (fun _ t ht => ?_)
    (fun hline => absurd hline.symm Bool.false_ne_true) fun t p' htest hallowed hnext => ?_
  · split
    · exact absurd rfl ((Token.stops_ne ht).1 _)
    · rfl
  · split at htest
    · obtain rfl := Option.some.inj hnext
      exact .inr ⟨_, rfl, ⟨h.stands.stack, h.stands.angles, h.stands.mode⟩,
        h.stands.behindName hF _⟩
    · cases htest

/-- A string, a number or a private name. -/
theorem Fits.holds_leaf (hF : F.IsSound) (h : Fits T F asIs st p s s') {sure : Bool}
    (hsure : sure = true → ¬AtStop T.k T.k' p s.rest s'.rest) {token : Token} {kind : NodeKind}
    (hkind : kind.isQuiet = true)
    (htoken : token = .string ∨ token = .number ∨ token = .privateName) :
    (st.accept F.level sure false true (.reads (st.after (.only .closed)))).Holds T F asIs
      (s.accept (· == token) kind) (s'.accept (· == token) kind) := by
  refine h.holds_accept hF hsure hkind (fun _ t ht => ?_) nofun fun t p' htest hallowed hnext => ?_
  · refine beq_eq_false_iff_ne.2 ?_
    obtain ⟨-, hstring, hnumber, hprivate, -⟩ := Token.stops_ne ht
    obtain rfl | rfl | rfl := htoken <;> assumption
  · obtain rfl := beq_iff_eq.1 htest
    have hplace : p' = { p with behind := .closed } := by
      obtain rfl | rfl | rfl := htoken <;> exact (Option.some.inj hnext).symm
    subst hplace
    exact .inr ⟨_, rfl, ⟨h.stands.stack, h.stands.angles, h.stands.mode⟩, rfl⟩

theorem Fits.holds_literal (hF : F.IsSound) (h : Fits T F asIs st p s s') {sure : Bool}
    (hsure : sure = true → ¬AtStop T.k T.k' p s.rest s'.rest) (token : Token) (kind : NodeKind) :
    ((literal token kind : Rule Goal).survey F.level rank sure asIs st).Holds T F asIs
      ((literal token kind).read self s) ((literal token kind).read self' s') := by
  cases token with
  | backQuote =>
    simp only [survey]
    split_ifs with hkind hmode
    · exact h.holds_closingQuote hmode hkind
    · refine h.holds_accept hF hsure hkind (fun _ t ht => ?_) (fun _ t ht => ?_)
        fun t p' htest hallowed hnext => ?_
      · exact beq_eq_false_iff_ne.2 (Token.stops_ne ht).2.2.2.2
      · refine beq_eq_false_iff_ne.2 ?_
        rintro rfl
        cases ht
      · obtain rfl := beq_iff_eq.1 htest
        obtain rfl := Option.some.inj hnext
        exact .inr ⟨_, rfl, ⟨h.stands.stack, h.stands.angles, rfl⟩, rfl⟩
    · trivial
  | string | number | privateName =>
    simp only [survey]
    split_ifs with hkind
    · exact h.holds_leaf hF hsure (by simpa using hkind) (by simp)
    · trivial
  | word | mark | stray | finish =>
    simp only [survey]
    split_ifs with hkind
    · simp at hkind
    · trivial

end

section

variable {rank : Nat} {self self' : Goal → Scan → Reading}

theorem Reading.failed_map_iff {r : Reading} {f : Scan → Scan} :
    Reading.Failed (r.map f) ↔ r.Failed := by
  cases r with
  | error reach => exact iff_of_true (failed_error _) (failed_error _)
  | ok t => exact iff_of_false not_failed_ok not_failed_ok

/-- What is changed after reading is read as before, but for where it ends. -/
theorem Verdict.Holds.mapped {asIs' : Bool} {f f' : Scan → Scan}
    (h : v.Holds T F asIs' r r')
    (hreads : ∀ next, v = .reads next → (Verdict.reads next).Holds T F asIs (r.map f) (r'.map f')) :
    v.Holds T F asIs (r.map f) (r'.map f') := by
  cases v with
  | unsure => trivial
  | never => exact ⟨h.1.map _, h.2.map _⟩
  | alike => exact Reading.failed_map_iff.trans (h.trans Reading.failed_map_iff.symm)
  | reads next => exact hreads next rfl

variable (T rank self self') in
/-- What has been told of the rule holds, wherever it is read. -/
def Rule.IsTold (rule : Rule Goal) : Prop :=
  ∀ {F : Frame} {sure asIs : Bool} {st : Stand} {p : Spot} {s s' : Scan}, F.IsSound →
    GoalsAlike T F rank self self' → Fits T F asIs st p s s' →
    (sure = true → ¬AtStop T.k T.k' p s.rest s'.rest) →
    (rule.survey F.level rank sure asIs st).Holds T F asIs (rule.read self s) (rule.read self' s')

namespace Rule.IsTold

variable {first second rule : Rule Goal}

theorem seq (hfirst : first.IsTold T rank self self') (hsecond : second.IsTold T rank self self') :
    (Rule.seq first second).IsTold T rank self self' := by
  intro F sure asIs st p s s' hF hgoals h hsure
  have hkind : (∃ inExpression, first = goesOn inExpression) ∨ first = sameLine ∨
      (∀ inExpression, first = goesOn inExpression → False) ∧ (first = sameLine → False) := by
    cases first <;> simp
  by_cases hlenience : (Rule.seq first second).needsLenience = true
  · have hnever : (Rule.seq first second).survey F.level rank sure asIs st = .never := by
      obtain ⟨inExpression, rfl⟩ | rfl | ⟨hgoesOn, hsameLine⟩ := hkind
      · rw [survey, if_pos hlenience]
      · rw [survey, if_pos hlenience]
      · rw [survey, if_pos hlenience]
        · exact hgoesOn
        · exact hsameLine
    rw [hnever]
    exact ⟨failed_of_needsLenience hlenience h.alike.left.strict,
      failed_of_needsLenience hlenience h.alike.right.strict⟩
  obtain ⟨inExpression, rfl⟩ | rfl | ⟨hgoesOn, hsameLine⟩ := hkind
  · rw [survey, if_neg hlenience]
    split_ifs with hcond
    · simp only [Bool.and_eq_true, Bool.or_eq_true, Bool.not_eq_true'] at hcond
      obtain ⟨⟨⟨hend, heven⟩, hstops⟩, hline⟩ := hcond
      refine h.holds_goesOn hF hgoals.opens hgoals.opens' _ hend heven hstops
        (fun hout => and_assoc.1 (hline.resolve_left (by simp [hout]))) fun hnot => ?_
      exact hsecond hF hgoals h fun _ => hnot
    · trivial
  · rw [survey, if_neg hlenience]
    split_ifs with hcond
    · simp only [Bool.and_eq_true, Bool.not_eq_true'] at hcond
      obtain ⟨⟨⟨hend, heven⟩, hquiet⟩, hout⟩ := hcond
      exact h.holds_sameLine hF hgoals.opens hgoals.opens' hend heven hquiet hout
        (hsecond hF hgoals h hsure)
    · trivial
  · rw [survey, if_neg hlenience]
    · have hread := hfirst hF hgoals h hsure
      split
      · rename_i next hnext
        rw [hnext] at hread
        exact hread.seq fun q t t' ht => hsecond hF hgoals ht fun hfalse =>
          absurd hfalse Bool.false_ne_true
      · rename_i hnever
        rw [hnever] at hread
        exact ⟨hread.1.bind _, hread.2.bind _⟩
      · trivial
    · exact hgoesOn
    · exact hsameLine

theorem choice (hfirst : first.IsTold T rank self self')
    (hsecond : second.IsTold T rank self self') :
    (Rule.choice first second).IsTold T rank self self' := by
  intro F sure asIs st p s s' hF hgoals h hsure
  rw [survey_choice]
  exact (hfirst hF hgoals h hsure).choice fun reach reach' =>
    hsecond hF hgoals (h.withReach reach reach') hsure

theorem many (hrule : rule.IsTold T rank self self') :
    (Rule.many rule).IsTold T rank self self' := by
  intro F sure asIs st p s s' hF hgoals h hsure
  have hone := hrule hF.behind (hgoals.behind h.room.1 h.room.2) h.behind hsure
  rw [survey]
  split
  · rename_i hnever
    rw [show F.level = (F.behind s s').level from rfl] at hnever
    rw [hnever] at hone
    obtain ⟨⟨reach, hreach⟩, ⟨reach', hreach'⟩⟩ := hone
    rw [Rule.read, Rule.read, repeatedly_of_failed hreach, repeatedly_of_failed hreach']
    exact .inr ⟨p, _, _, rfl, rfl, h.withReach _ _⟩
  · rename_i one hsurvey
    rw [show F.level = (F.behind s s').level from rfl] at hsurvey
    rw [hsurvey] at hone
    dsimp only
    split
    · rename_i more hmore
      split_ifs with hcond
      · obtain ⟨honeNest, hmoreNest, honeMoved, hmoreMoved, honeMade, hmoreMade, hall⟩ := hcond
        refine h.holds_many hone (fun q t t' ht => ?_) honeNest honeMoved honeMade hmoreNest
          hmoreMoved hmoreMade rfl hall
        have hsure : false = true → ¬AtStop T.k T.k' q t.rest t'.rest :=
          fun hfalse => absurd hfalse Bool.false_ne_true
        have hread := hrule hF.behind (hgoals.behind ht.room.1 ht.room.2) ht.behind hsure
        rw [← hmore]
        exact hread
      · trivial
    · trivial
  · trivial

theorem notAhead (hrule : rule.IsTold T rank self self') :
    (Rule.notAhead rule).IsTold T rank self self' := by
  intro F sure asIs st p s s' hF hgoals h hsure
  have hread := hrule hF hgoals h hsure
  rw [survey]
  split
  · trivial
  · rename_i hknown
    have hiff := hread.failed_iff hknown
    simp only [Rule.read]
    rcases hleft : rule.read self s with reach | t <;>
      rcases hright : rule.read self' s' with reach' | t' <;> rw [hleft, hright] at hiff
    · exact .inr ⟨p, s, s', rfl, rfl, h⟩
    · exact absurd (hiff.1 (failed_error _)) not_failed_ok
    · exact absurd (hiff.2 (failed_error _)) not_failed_ok
    · exact Verdict.holds_of_failed (failed_error _) (failed_error _) _

theorem ahead (hrule : rule.IsTold T rank self self') :
    (Rule.ahead rule).IsTold T rank self self' := by
  intro F sure asIs st p s s' hF hgoals h hsure
  have hkind : (∃ inExpression others, rule = .choice (semicolon inExpression) others) ∨
      ∀ inExpression others, rule = .choice (semicolon inExpression) others → False := by
    cases rule with
    | choice first second => cases first <;> simp
    | _ => simp
  obtain ⟨inExpression, others, rfl⟩ | hother := hkind
  · rw [survey]
    split_ifs with hcond
    · simp only [Bool.and_eq_true, Bool.not_eq_true', Option.any_eq_true, List.contains_iff_mem]
        at hcond
      obtain ⟨⟨hend, hout⟩, ms, hms, hround, hsquare⟩ := hcond
      exact h.holds_aheadOfEnd hF inExpression hend hout hms hround hsquare
    · trivial
  · rw [survey]
    · have hread := hrule hF hgoals h hsure
      split
      · rename_i next hnext
        exact h.holds_ahead (hread.failed_iff (by simp [hnext]))
      · rename_i halike
        exact h.holds_ahead (hread.failed_iff (by simp [halike]))
      · rename_i hreads halike
        rcases hv : rule.survey F.level rank sure asIs st with _ | _ | _ | next
        · trivial
        · rw [hv] at hread
          obtain ⟨⟨reach, hreach⟩, ⟨reach', hreach'⟩⟩ := hread
          simp only [Rule.read, hreach, hreach']
          exact ⟨failed_error _, failed_error _⟩
        · exact absurd hv halike
        · exact absurd hv (hreads next)
    · exact hother

theorem node {kind : NodeKind} (hrule : rule.IsTold T rank self self') :
    (Rule.node kind rule).IsTold T rank self self' := by
  intro F sure asIs st p s s' hF hgoals h hsure
  have hinner : Fits T F asIs { st with made := false } p
      { s.pushComments with children := [] } { s'.pushComments with children := [] } :=
    h.pushComments.withChildren false (by simp) (by simp) nofun
  have hread := hrule hF hgoals hinner hsure
  rw [survey]
  split
  · rename_i next hnext
    split_ifs with hkind
    · rw [hnext] at hread
      exact hread.map fun q t t' ht => ht.close hkind h.alike.left.pushComments
        h.alike.right.pushComments _ _ true
    · trivial
  · rename_i hnever
    rw [hnever] at hread
    exact ⟨hread.1.map _, hread.2.map _⟩
  · trivial

theorem wrap {kind : NodeKind} (hrule : rule.IsTold T rank self self') :
    (Rule.wrap kind rule).IsTold T rank self self' := by
  intro F sure asIs st p s s' hF hgoals h hsure
  rw [survey]
  split_ifs with hcond
  swap
  · trivial
  obtain ⟨hkind, hmade⟩ := Bool.and_eq_true_iff.1 hcond
  obtain ⟨hsome, hsome'⟩ := h.made hmade
  have hquiet := h.alike.left.quiet
  have hquiet' := h.alike.right.quiet
  obtain ⟨last, earlier, hchildren⟩ := List.exists_cons_of_ne_nil hsome
  obtain ⟨last', earlier', hchildren'⟩ := List.exists_cons_of_ne_nil hsome'
  rw [hchildren] at hquiet
  rw [hchildren'] at hquiet'
  have hinner : Fits T F asIs st p { s with children := [last] } { s' with children := [last'] } := by
    refine (h.withChildren true (fun n hn => ?_) (fun n hn => ?_) fun _ => ?_).weaken rfl
      (fun _ hb => hb) id fun _ => rfl
    · exact hquiet n (List.mem_cons.2 (.inl (List.mem_singleton.1 hn)))
    · exact hquiet' n (List.mem_cons.2 (.inl (List.mem_singleton.1 hn)))
    · exact ⟨List.cons_ne_nil _ _, List.cons_ne_nil _ _⟩
  have hread := hrule hF hgoals hinner hsure
  have houter : ({ s with children := earlier } : Scan).IsReady T.source :=
    h.alike.left.ofSame rfl rfl rfl rfl fun n hn => hquiet n (List.mem_cons_of_mem _ hn)
  have houter' : ({ s' with children := earlier' } : Scan).IsReady T.source' :=
    h.alike.right.ofSame rfl rfl rfl rfl fun n hn => hquiet' n (List.mem_cons_of_mem _ hn)
  simp only [Rule.read, hchildren, hchildren']
  refine hread.mapped fun next hnext => ?_
  rw [hnext] at hread
  exact hread.map fun q t t' ht =>
    (ht.close hkind houter houter' _ _ true).weaken rfl (fun _ hb => hb) id fun _ => rfl

theorem part {field : FieldName} (hrule : rule.IsTold T rank self self') :
    (Rule.part field rule).IsTold T rank self self' := by
  intro F sure asIs st p s s' hF hgoals h hsure
  have hread := hrule hF hgoals h hsure
  refine hread.mapped fun next hnext => ?_
  rw [hnext] at hread
  exact hread.map fun q t t' ht => ht.withField field

theorem breaking {breaks : Bool} (hrule : rule.IsTold T rank self self') :
    (Rule.breaking breaks rule).IsTold T rank self self' := by
  intro F sure asIs st p s s' hF hgoals h hsure
  have hread := hrule hF hgoals (h.withBreaks breaks) hsure
  refine hread.mapped fun next hnext => ?_
  rw [hnext] at hread
  exact hread.map fun q t t' ht => h.restored ht

theorem mended (hrule : rule.IsTold T rank self self') :
    (Rule.mended rule).IsTold T rank self self' := by
  intro F sure asIs st p s s' hF hgoals h hsure
  simp only [Rule.read, h.alike.left.strict, h.alike.right.strict]
  exact hrule hF hgoals h hsure

theorem goal (g : Goal) : (Rule.goal g).IsTold T rank self self' := by
  intro F sure asIs st p s s' hF hgoals h hsure
  rw [survey]
  split
  · rename_i within hlevel
    split_ifs with hcond habsent
    · obtain ⟨hmode, heven, hlines, hrank, hentry, hinner, hdeep⟩ := hcond
      have hread := h.holds_goal hF hgoals hlevel hmode heven hlines hrank hentry
        (fun hw => by simpa using hinner hw) hdeep
      rwa [if_pos habsent] at hread
    · obtain ⟨hmode, heven, hlines, hrank, hentry, hinner, hdeep⟩ := hcond
      have hread := h.holds_goal hF hgoals hlevel hmode heven hlines hrank hentry
        (fun hw => by simpa using hinner hw) hdeep
      rwa [if_neg habsent] at hread
    · trivial
  · split_ifs with hcond
    · obtain ⟨rfl, hmode, hdeep, hbefore⟩ := hcond
      exact h.holds_block hF hgoals hmode hdeep (by simpa using hbefore)
    · trivial

end Rule.IsTold

/-- **What has been told of a rule holds of reading both texts by it.** -/
theorem Rule.isTold (rule : Rule Goal) : rule.IsTold T rank self self' := by
  induction rule with
  | seq first second ihfirst ihsecond => exact ihfirst.seq ihsecond
  | choice first second ihfirst ihsecond => exact ihfirst.choice ihsecond
  | many rule ih => exact ih.many
  | ahead rule ih => exact ih.ahead
  | notAhead rule ih => exact ih.notAhead
  | node kind rule ih => exact ih.node
  | wrap kind rule ih => exact ih.wrap
  | part field rule ih => exact ih.part
  | breaking breaks rule ih => exact ih.breaking
  | mended rule ih => exact ih.mended
  | goal g => exact Rule.IsTold.goal g
  | empty => exact fun _ _ h _ => .inr ⟨_, _, _, rfl, rfl, h⟩
  | word w => exact fun hF _ h hsure => h.holds_word hF hsure w
  | mark m => exact fun hF _ h hsure => h.holds_mark hF hsure m
  | name kind except => exact fun hF _ h hsure => h.holds_name hF hsure kind except
  | literal token kind => exact fun hF _ h hsure => h.holds_literal hF hsure token kind
  | regex =>
    intro F sure asIs st p s s' hF hgoals h hsure
    rw [survey]
    split_ifs with hin
    · simp only [Bool.and_eq_true, beq_iff_eq, Bool.not_eq_true'] at hin
      exact h.holds_regex hF hin.1 hin.2
    · trivial
  | templateText =>
    intro F sure asIs st p s s' hF hgoals h hsure
    rw [survey]
    split_ifs with hmode
    · exact .inr ⟨_, _, _, rfl, rfl, h.passTemplateText hmode⟩
    · trivial
  | substitutionStart =>
    intro F sure asIs st p s s' hF hgoals h hsure
    rw [survey]
    split_ifs with hmode
    · exact h.holds_substitution hmode
    · trivial
  | semicolon inExpression =>
    intro F sure asIs st p s s' hF hgoals h hsure
    rw [survey]
    split_ifs with hcond
    · obtain ⟨hend, hcurly⟩ := Bool.and_eq_true_iff.1 hcond
      exact h.holds_semicolon hF inExpression hend (beq_iff_eq.1 hcurly)
    · trivial
  | missing kind =>
    exact fun _ _ h _ => ⟨failed_of_needsLenience rfl h.alike.left.strict,
      failed_of_needsLenience rfl h.alike.right.strict⟩
  | inLenient =>
    exact fun _ _ h _ => ⟨failed_of_needsLenience rfl h.alike.left.strict,
      failed_of_needsLenience rfl h.alike.right.strict⟩
  | skippedTo stop =>
    exact fun _ _ h _ => ⟨failed_of_needsLenience rfl h.alike.left.strict,
      failed_of_needsLenience rfl h.alike.right.strict⟩
  | goesOn | sameLine | lenient | finish | skipped => exact fun _ _ _ _ => trivial

end

/-! ### The grammar -/

theorem openWith_readGoal (fuel : Nat) : OpenWith (readGoal grammar fuel) := by
  intro g m s hopener htoken
  rcases fuel with _ | fuel
  · exact failed_error _
  have hstarts : (grammar g).startsAmong (fun
      | mark characters => characters == m
      | _ => false) = true := by
    cases g <;> cases hopener <;> decide +kernel
  refine failed_of_startsAmong (t := s.next.token) (fun r u hr hu => ?_) hstarts rfl
  cases r with
  | mark characters =>
    obtain rfl := beq_iff_eq.1 hr
    exact failed_accept (beq_eq_false_iff_ne.2 (hu ▸ htoken))
  | _ => cases hr

/-- The frame of a goal that is started. -/
def Frame.ofStart (level : Level) (p : Spot) (s s' : Scan) : Frame :=
  ⟨level, p, s.rest.length, s'.rest.length, s.breaks, s'.breaks⟩

namespace CanStart

variable {g : Goal} {level : Level} (h : CanStart T g level p s s')
include h

theorem isSound : (Frame.ofStart level p s s').IsSound := ⟨h.inner, h.deep, h.breaks, h.lines⟩

theorem fits : Fits T (.ofStart level p s s') true g.start p s s' :=
  ⟨h.alike, ⟨⟨rfl, by rw [show g.start.angles = 0 from rfl, ite_self]; rfl, h.mode⟩, h.entry⟩, nofun,
    ⟨le_rfl, le_rfl⟩, nofun, fun _ => ⟨rfl, rfl⟩, nofun⟩

end CanStart

/-- What has been told of a goal that ends where it started, but for what it has read. -/
theorem Fits.hasRead {level : Level} {q : Spot} {t t' : Scan}
    (h : Fits T (.ofStart level p s s') true st q t t') (hmode : p.mode = .code)
    (hnest : st.toNest = ⟨[], 0, .code⟩) (hopening : st.before.opening = false)
    (harrow : st.before.arrow = false) (hmoved : st.moved = true) (hmade : st.made = true) :
    HasRead T p s s' q t t' := by
  obtain ⟨hlt, hlt'⟩ := h.moved hmoved
  obtain ⟨hsome, hsome'⟩ := h.made hmade
  obtain ⟨hbreaks, hbreaks'⟩ := h.kept rfl
  refine ⟨h.alike, ?_, ?_, hlt, hlt', hbreaks, hbreaks', hsome, hsome'⟩
  · obtain ⟨⟨hstack, hangles, hq⟩, -⟩ := h.stands
    rw [hnest] at hstack hangles hq
    rw [show (⟨[], 0, .code⟩ : Nest).angles = 0 from rfl, ite_self] at hangles
    have hangles : q.angles = p.angles := hangles
    have hstack : q.stack = p.stack := hstack
    have hq : q.mode = p.mode := hq.trans hmode.symm
    obtain ⟨⟨stack, angles, mode⟩, behind⟩ := q
    obtain ⟨⟨stack', angles', mode'⟩, behind'⟩ := p
    simp_all
  · have hbefore := h.stands.before
    cases hq : q.behind <;> rw [hq] at hbefore
    · exact absurd hbefore (by simp [Before.has, hopening])
    · exact absurd hbefore (by simp [Before.has, harrow])
    · rfl
    · rfl

/-- **A goal is read alike in texts that are twins**, if its goals may be nested deep enough. -/
theorem readsAlike_readGoal {fuel fuel' : Nat} {g : Goal} {level : Level}
    (hlevel : g.level? = some level) (hstart : CanStart T g level p s s')
    (hfuel : 40 * (s.rest.length - T.k.length) + g.rank < fuel)
    (hfuel' : 40 * (s'.rest.length - T.k'.length) + g.rank < fuel') :
    ReadsAlike T g p s s' (readGoal grammar fuel g s) (readGoal grammar fuel' g s') := by
  induction fuel generalizing fuel' g level p s s' with
  | zero => omega
  | succ fuel ih =>
    obtain ⟨fuel', rfl⟩ := Nat.exists_eq_succ_of_ne_zero (Nat.ne_of_gt (Nat.zero_lt_of_lt hfuel'))
    have hgoals : GoalsAlike T (.ofStart level p s s') g.rank (readGoal grammar fuel)
        (readGoal grammar fuel') := by
      refine ⟨openWith_readGoal fuel, openWith_readGoal fuel', ?_⟩
      intro g' level' q u u' hlevel' hstart' hroom hroom' hmoved
      simp only [Frame.ofStart] at hroom hroom' hmoved
      have hrank := g'.rank_lt
      obtain ⟨hle, hle'⟩ := hstart'.alike.twins.length_le
      exact ih hlevel' hstart' (by omega) (by omega)
    have htold : Verdict.Holds T (.ofStart level p s s') true _ _
        ((grammar g).survey level g.rank false true g.start) :=
      Rule.isTold (grammar g) hstart.isSound hgoals hstart.fits nofun
    have hsettled := g.isSettled_all
    simp only [Goal.isSettled, hlevel, Option.all_some] at hsettled
    rw [readGoal, readGoal]
    rcases hv : (grammar g).survey level g.rank false true g.start with _ | _ | _ | st <;>
      rw [hv] at hsettled htold
    · cases hsettled
    · exact .inl htold
    · cases hsettled
    · simp only [Bool.and_eq_true, Bool.not_eq_true', beq_iff_eq] at hsettled
      obtain ⟨⟨⟨⟨⟨hpresent, hnest⟩, hopening⟩, harrow⟩, hmoved⟩, hmade⟩ := hsettled
      obtain hfailed | ⟨q, t, t', ht, ht', hread⟩ := htold
      · exact .inl hfailed
      · exact .inr ⟨hpresent, q, t, t', ht, ht',
          hread.hasRead hstart.mode hnest hopening harrow hmoved hmade⟩

end ServiceScaffold.Syntax
