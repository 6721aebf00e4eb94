import ServiceScaffold.Proofs.Syntax.SideBySide

/-!
# Tokens read in two texts

Behind the end of what two texts have in common, no rule for types goes on; before it, both have the
same token.  So a test of the next token has the same answer in both texts, and so has the question
whether a statement ends there.

* `Fits.holds_accept` : a test of the next token;
* `failed_of_refuses`, `failed_of_refusesLine` : rules that fail before some tokens;
* `Fits.holds_goesOn`, `Fits.holds_sameLine`, `Fits.holds_semicolon` : what is asked of the blanks
  before a token.
-/

namespace ServiceScaffold.Syntax

open Rule

variable {T : Pair} {F : Frame} {asIs : Bool} {st : Stand} {p : Spot} {s s' : Scan} {r r' : Reading}
  {v : Verdict}

/-! ### Tokens -/

theorem Nest.Over.turn {n b n' b' : Nest} {t : Turn} (h : n.Over F b) (hn : n.turn t = some n')
    (hb : b.turn t = some b') : n'.Over F b' := by
  obtain ⟨stack, angles, mode⟩ := n
  obtain ⟨bstack, bangles, bmode⟩ := b
  obtain ⟨hstack, hangles, hmode⟩ := h
  dsimp only at hstack hangles hmode
  subst hstack hmode
  cases t with
  | opens c => cases hn; cases hb; exact ⟨rfl, hangles, rfl⟩
  | closes c =>
    rcases stack with _ | ⟨d, rest⟩
    · cases hn
    · simp only [Nest.turn, List.cons_append] at hn hb
      split_ifs at hn hb <;> cases hn <;> cases hb <;> exact ⟨rfl, hangles, rfl⟩
  | opensAngle =>
    cases hn
    cases hb
    by_cases hbase : F.base.stack = [] <;> by_cases hstack : stack = [] <;>
      constructor <;> simp [hbase, hstack, hangles, Nat.add_assoc]
  | closesAngle =>
    by_cases hstack : stack = []
    · subst hstack
      by_cases hbase : F.base.stack = []
      · simp only [Nest.turn, hbase, List.append_nil, if_true] at hn hb hangles
        split_ifs at hn hb
        cases hn
        cases hb
        exact ⟨by simp [hbase], by simp only [hbase, if_true]; omega, rfl⟩
      · simp only [Nest.turn, hbase, List.nil_append, if_true, if_false] at hn hb hangles
        split_ifs at hn
        cases hn
        cases hb
        exact ⟨rfl, by simp [hbase, hangles], rfl⟩
    · have happend : stack ++ F.base.stack ≠ [] := by simp [hstack]
      simp only [Nest.turn, if_neg hstack, if_neg happend] at hn hb
      cases hn
      cases hb
      exact ⟨rfl, hangles, rfl⟩
  | stays => cases hn; cases hb; exact ⟨rfl, hangles, rfl⟩

/-- In an expression angle brackets stand for themselves. -/
theorem Level.turn_over (hF : F.IsSound) {n b n' b' : Nest} {t : Turn} (h : n.Over F b)
    (hn : F.level.turn n t = some n') (hb : b.turn t = some b') : n'.Over F b' := by
  unfold Level.turn at hn
  split_ifs at hn with hangle houter
  · exact h.turn hn hb
  · obtain rfl := Option.some.inj hn
    have hstack : b.stack ≠ [] := by simp [h.stack, hF.inner houter]
    obtain ⟨-, rfl | rfl⟩ := hangle
    all_goals
      simp only [Nest.turn, if_neg hstack] at hb
      obtain rfl := Option.some.inj hb
      exact h
  · exact h.turn hn hb

/-- What kind of token a mark is at a place that is meant. -/
theorem Stand.Over.behindMark (hF : F.IsSound) (h : st.Over F p) (m : String) :
    (st.behindMark F.level m).has (p.behindMark m) = true := by
  refine Before.has_ite (fun hjoins => ?_) (Before.has_only _)
  obtain ⟨hbare, hmark⟩ := Bool.and_eq_true_iff.1 hjoins
  exact Bool.and_eq_true_iff.2 ⟨h.isBare hF hbare, hmark⟩

/-- What kind of token a word is at a place that is meant. -/
theorem Stand.Over.behindWord (hF : F.IsSound) (h : st.Over F p) (w : String) :
    (st.behindWord F.level w).has (p.behindWord w) = true := by
  refine Before.has_ite (fun hjoins => ?_) (Before.has_only _)
  simp only [Bool.and_eq_true, beq_iff_eq] at hjoins ⊢
  obtain ⟨⟨hbare, hclosed⟩, hword⟩ := hjoins
  exact ⟨⟨h.isBare hF hbare, h.closed hclosed⟩, hword⟩

/-- What kind of token a name is at a place that is meant. -/
theorem Stand.Over.behindName (hF : F.IsSound) (h : st.Over F p) (w : String) :
    (st.behindName F.level).has (p.behindWord w) = true := by
  refine Before.has_ite (fun hjoins => ?_) (Before.has_anyWord w)
  simp only [Bool.and_eq_true, beq_iff_eq] at hjoins ⊢
  exact ⟨h.isBare hF hjoins.1.1, h.closed hjoins.1.2⟩

/-- Behind a mark. -/
theorem Stand.Over.readMark (hF : F.IsSound) (h : st.Over F p) {m : String} {p' : Spot}
    (hread : p.read (.mark m.toList) = some p') : st.readMark F.level m = .unsure ∨
      ∃ next, st.readMark F.level m = .reads next ∧ next.Over F p' := by
  simp only [Spot.read, String.ofList_toList] at hread
  obtain ⟨b, hb, rfl⟩ := Option.map_eq_some_iff.1 hread
  unfold Stand.readMark
  rcases hn : F.level.turn st.toNest (turnOf m) with _ | n
  · exact .inl rfl
  · exact .inr ⟨_, rfl, Level.turn_over hF h.toOver hn hb, h.behindMark hF m⟩

/-- The next token is read in both texts. -/
theorem Fits.take {t : Token} {p' : Spot} {next : Stand} {kind : NodeKind}
    (h : Fits T F asIs st p s s') (hat : AtToken T.k T.k' p s.rest s'.rest t p')
    (hkind : kind.isQuiet = true) (hnext : next.Over F p') :
    Fits T F asIs next p' (s.take kind) (s'.take kind) := by
  have hleft : (s.take kind).rest = (Sight.ofText s.rest).tail := h.alike.left.tail
  have hright : (s'.take kind).rest = (Sight.ofText s'.rest).tail := h.alike.right.tail
  have hlt := hat.left_lt
  have hlt' := hat.right_lt
  obtain ⟨hroom, hroom'⟩ := h.room
  refine ⟨⟨h.alike.left.take hkind, h.alike.right.take hkind, ?_⟩, hnext,
    fun _ => ⟨List.cons_ne_nil _ _, List.cons_ne_nil _ _⟩, ?_, fun _ => ?_, h.kept, h.even⟩
  · rw [hleft, hright]
    exact hat.rest
  · rw [hleft, hright]
    omega
  · rw [hleft, hright]
    omega

/-- A test of the next token. -/
theorem Fits.holds_accept (hF : F.IsSound) (h : Fits T F asIs st p s s') {sure stops line : Bool}
    {test : Token → Bool} {kind : NodeKind} {next : Verdict}
    (hsure : sure = true → ¬AtStop T.k T.k' p s.rest s'.rest) (hkind : kind.isQuiet = true)
    (hstops : stops = false → ∀ t : Token, t.stops → test t = false)
    (hline : line = false → ∀ t : Token, t.mayStartLine = true → test t = false)
    (hread : ∀ t p', test t = true → p.forbids t = false → p.read t = some p' →
      next = .unsure ∨ ∃ n, next = .reads n ∧ n.Over F p') :
    (st.accept F.level sure stops line next).Holds T F asIs (s.accept test kind)
      (s'.accept test kind) := by
  unfold Stand.accept
  split_ifs with hcond
  swap
  · trivial
  simp only [Bool.and_eq_true, beq_iff_eq, Bool.not_eq_true'] at hcond
  obtain ⟨hmode, hend⟩ := hcond
  unfold Scan.accept
  rw [h.alike.left.token, h.alike.right.token]
  obtain hstop | ⟨t, p', hat⟩ := h.alike.twins.code (h.stands.mode.trans hmode)
  · -- no token passes with which no type goes on
    have hout := h.stands.isOut hF hstop.out
    have hunsure : sure = false := by
      rw [← Bool.not_eq_true]
      exact fun hs => hsure hs hstop
    simp only [hout, hunsure, Bool.not_false, Bool.true_and, Bool.or_eq_false_iff,
      Bool.and_eq_false_iff] at hend
    obtain ⟨hnostops, hnoline⟩ := hend
    have hright : test (Sight.ofText s'.rest).token = false := by
      rw [hstop.right]
      exact hstops hnostops _ hstop.stops.right
    have hleft : test (Sight.ofText s.rest).token = false := by
      rw [hstop.left]
      obtain hstops' | ⟨hclosed, hstarts⟩ := hstop.stops.left
      · exact hstops hnostops _ hstops'
      · refine hline (hnoline.resolve_right (by simp [h.stands.closed hclosed])) _ ?_
        exact Bool.or_eq_true_iff.2 (hstarts.imp_right And.left)
    rw [hleft, hright]
    exact Verdict.holds_of_failed (failed_error _) (failed_error _) _
  · rw [hat.left, hat.right]
    by_cases htest : test t = true
    · rw [if_pos htest, if_pos htest]
      obtain rfl | ⟨n, rfl, hn⟩ := hread t p' htest hat.allowed hat.next
      · trivial
      · exact .inr ⟨p', _, _, rfl, rfl, h.take hat hkind hn⟩
    · rw [if_neg htest, if_neg htest]
      exact Verdict.holds_of_failed (failed_error _) (failed_error _) _

/-! ### Rules that fail -/

namespace Rule

variable {self : Goal → Scan → Reading}

/-- Goals that start with a mark fail before other tokens. -/
def OpenWith (self : Goal → Scan → Reading) : Prop :=
  ∀ g m s, g.opener? = some m → s.next.token ≠ .mark m.toList → (self g s).Failed

theorem failed_accept {test : Token → Bool} {kind : NodeKind} (h : test s.next.token = false) :
    Reading.Failed (s.accept test kind) := by
  unfold Scan.accept
  rw [if_neg (by simp [h])]
  exact failed_error _

theorem failed_choice {first second : Rule Goal} (h : (first.read self s).Failed)
    (h' : ∀ reach, (second.read self { s with reach := reach }).Failed) :
    ((choice first second).read self s).Failed := by
  obtain ⟨reach, hreach⟩ := h
  simp only [read, hreach]
  exact h' reach

/-- A rule that makes up for an absent token fails where that is not allowed. -/
theorem failed_of_needsLenience {rule : Rule Goal} (h : rule.needsLenience = true)
    (hs : s.isLenient = false) : (rule.read self s).Failed := by
  fun_induction needsLenience rule generalizing s with
  | case1 kind =>
    simp only [read, hs]
    exact failed_error _
  | case2 =>
    simp only [read, hs]
    exact failed_error _
  | case3 stop =>
    simp only [read, hs]
    exact failed_error _
  | case4 rule second ih =>
    obtain hahead | ⟨t, ht⟩ := Reading.failed_or ((ahead rule).read self s)
    · exact hahead.bind _
    · have hsame : t = s := by
        simp only [read] at ht
        split at ht
        · exact (Except.ok.inj ht).symm
        · cases ht
      rw [read, ht, hsame]
      exact ih h hs
  | case5 first second _ ih => exact (ih h hs).bind _
  | case6 first second ih ih' =>
    rw [Bool.and_eq_true] at h
    exact failed_choice (ih h.1 hs) fun reach => ih' h.2 hs
  | case7 kind rule ih =>
    refine Reading.Failed.map (ih h ?_) _
    exact hs
  | case8 field rule ih => exact (ih h hs).map _
  | case9 breaks rule ih =>
    refine Reading.Failed.map (ih h ?_) _
    exact hs
  | case10 rule ih =>
    simp only [read, hs]
    exact ih h hs
  | case11 => cases h

/-- A rule fails before a token if all rules fail with which it may start. -/
theorem failed_of_startsAmong {some : Rule Goal → Bool} {t : Token} {rule : Rule Goal}
    (hsome : ∀ (r : Rule Goal) (s : Scan), some r = true → s.next.token = t →
      (r.read self s).Failed)
    (h : rule.startsAmong some = true) (htoken : s.next.token = t) : (rule.read self s).Failed := by
  induction rule generalizing s with
  | seq first second ih => exact (ih h htoken).bind _
  | choice first second ih ih' =>
    rw [startsAmong, Bool.and_eq_true] at h
    refine failed_choice (ih h.1 htoken) fun reach => ih' h.2 ?_
    exact htoken
  | ahead rule ih =>
    obtain ⟨reach, hreach⟩ := ih h htoken
    simp only [read, hreach]
    exact failed_error _
  | node kind rule ih =>
    refine Reading.Failed.map (ih h ?_) _
    exact htoken
  | wrap kind rule ih =>
    simp only [read]
    split
    · refine Reading.Failed.map (ih h ?_) _
      exact htoken
    · exact failed_error _
  | part field rule ih => exact (ih h htoken).map _
  | breaking breaks rule ih =>
    refine Reading.Failed.map (ih h ?_) _
    exact htoken
  | mended rule ih =>
    have hstrict : (rule.read self { s with isLenient := false }).Failed := by
      refine ih h ?_
      exact htoken
    obtain ⟨reach, hreach⟩ := hstrict
    simp only [read, hreach]
    split
    · exact (ih h htoken).bind _
    · exact ih h htoken
  | _ => exact hsome _ s h htoken

/-- What a rule refuses, it does not read. -/
theorem failed_of_refuses (hopens : OpenWith self) {marks : List String} {rule : Rule Goal}
    (h : rule.refuses marks = true)
    (htoken : s.next.token = .finish ∨ ∃ m ∈ marks, s.next.token = .mark m.toList) :
    (rule.read self s).Failed := by
  refine failed_of_startsAmong (fun r u hr hu => ?_) h rfl
  rw [← hu] at htoken
  -- neither the end nor one of the marks is a mark that is not among them
  have hother : ∀ m ∉ marks, u.next.token ≠ .mark m.toList := by
    intro m hm heq
    obtain hfinish | ⟨n, hn, hmark⟩ := htoken
    · rw [hfinish] at heq
      cases heq
    · rw [hmark] at heq
      exact hm (String.toList_inj.1 (Token.mark.inj heq) ▸ hn)
  cases r with
  | mark letters => exact failed_accept (beq_eq_false_iff_ne.2 (hother letters (by simpa using hr)))
  | goal g =>
    obtain ⟨m, hm, hno⟩ := (Option.any_eq_true _ _).1 hr
    exact hopens g m u hm (hother m (by simpa using hno))
  | word letters =>
    refine failed_accept ?_
    obtain hfinish | ⟨n, -, hmark⟩ := htoken
    · simp [hfinish]
    · simp [hmark]
  | name kind except =>
    refine failed_accept ?_
    obtain hfinish | ⟨n, -, hmark⟩ := htoken
    · simp [hfinish]
    · simp [hmark]
  | literal token kind =>
    refine failed_accept (beq_eq_false_iff_ne.2 ?_)
    rintro rfl
    obtain hfinish | ⟨n, -, hmark⟩ := htoken
    · rw [hfinish] at hr
      cases hr
    · rw [hmark] at hr
      cases hr
  | _ => cases hr

/-- A token that starts a line is not read behind a type. -/
theorem failed_of_refusesLine {rule : Rule Goal} (h : rule.refusesLine = true)
    (htoken : s.next.token.startsLine = true) : (rule.read self s).Failed := by
  refine failed_of_startsAmong (fun r u hr hu => ?_) h rfl
  rw [← hu] at htoken
  cases r with
  | word letters =>
    refine failed_accept (beq_eq_false_iff_ne.2 fun heq => ?_)
    rw [heq] at htoken
    simp only [Bool.or_eq_true, beq_iff_eq] at hr
    obtain rfl | rfl := hr <;> revert htoken <;> decide
  | mark letters =>
    refine failed_accept (beq_eq_false_iff_ne.2 fun heq => ?_)
    rw [heq] at htoken
    simp only [Token.startsLine, beq_iff_eq] at htoken
    exact bne_iff_ne.1 hr (String.toList_inj.1 htoken)
  | _ => cases hr

end Rule

/-! ### Ends of statements -/

/-- A token with which no type goes on is the end of the text, or a mark with which no expression
goes on either. -/
theorem Token.stops.mem_stopMarks {t : Token} (h : t.stops) :
    t = .finish ∨ ∃ m ∈ stopMarks, t = .mark m.toList := by
  obtain rfl | rfl | rfl | rfl := h
  · exact .inr ⟨";", by decide, rfl⟩
  · exact .inr ⟨",", by decide, rfl⟩
  · exact .inr ⟨"\x7d", by decide, rfl⟩
  · exact .inl rfl

theorem AtToken.not_atStop {u u' : List Char} {t : Token} {p' : Spot}
    (h : AtToken T.k T.k' p u u' t p') : ¬AtStop T.k T.k' p u u' := by
  intro hstop
  have hle := h.rest.length_le.1
  have hlt := h.left_lt
  rw [hstop.left] at hlt hle
  omega

/-- What is asked before a rule has a bad answer, or the rule fails. -/
theorem failed_guarded {c : Bool} {e : Nat} {read : Scan → Reading}
    (h : c = false → (read s).Failed) :
    Reading.Failed (Except.bind (if c then .error e else .ok s) read) := by
  cases c
  · exact h rfl
  · exact failed_error e

/-- What is asked before a rule has the same answer in both texts, or the rule fails in both. -/
theorem Verdict.holds_guarded {c c' : Bool} {e e' : Nat} {read read' : Scan → Reading}
    (h : c = c' → v.Holds T F asIs (read s) (read' s'))
    (hfailed : c ≠ c' → (read s).Failed ∧ (read' s').Failed) :
    v.Holds T F asIs (Except.bind (if c then .error e else .ok s) read)
      (Except.bind (if c' then .error e' else .ok s') read') := by
  cases c <;> cases c'
  · exact h rfl
  · exact Verdict.holds_of_failed (hfailed (by simp)).1 (failed_error _) _
  · exact Verdict.holds_of_failed (failed_error _) (hfailed (by simp)).2 _
  · exact Verdict.holds_of_failed (failed_error _) (failed_error _) _

section

variable {self self' : Goal → Scan → Reading} {second : Rule Goal}

/-- What a type could go on with fails where the texts part. -/
theorem Fits.failed_goesOn_of_atStop (hF : F.IsSound) (hopens : OpenWith self)
    (hopens' : OpenWith self') (h : Fits T F asIs st p s s')
    (hstop : AtStop T.k T.k' p s.rest s'.rest) (inExpression : Bool)
    (hstops : second.refuses stopMarks = true)
    (hline : asIs = true ∧ inExpression = false ∧ second.refusesLine = true) :
    ((seq (goesOn inExpression) second).read self s).Failed ∧
      ((seq (goesOn inExpression) second).read self' s').Failed := by
  rw [Rule.read, Rule.read, Rule.read, Rule.read]
  refine ⟨failed_guarded fun hgoes => ?_, failed_guarded fun _ => ?_⟩
  · obtain hstopped | ⟨-, hnew⟩ := hstop.stops.left
    · refine failed_of_refuses hopens hstops ?_
      rw [h.alike.left.token, hstop.left]
      exact hstopped.mem_stopMarks
    obtain ⟨hasIs, rfl, hrefuses⟩ := hline
    obtain hstarts | ⟨-, hends⟩ := hnew
    · exact failed_of_refusesLine hrefuses (by rwa [h.alike.left.token, hstop.left])
    · -- the statement has ended
      rw [h.breaks_of_isOut hF hasIs hstop.out, Scan.endsStatement_eq, h.alike.left.sight,
        hstop.left, hends] at hgoes
      cases hgoes
  · refine failed_of_refuses hopens' hstops ?_
    rw [h.alike.right.token, hstop.right]
    exact hstop.stops.right.mem_stopMarks

theorem Fits.holds_goesOn (hF : F.IsSound) (hopens : OpenWith self) (hopens' : OpenWith self')
    (h : Fits T F asIs st p s s') (inExpression : Bool) (hend : st.mayEnd = true)
    (heven : st.isEven F.level asIs = true) (hstops : second.refuses stopMarks = true)
    (hline : st.isOut F.level = true →
      asIs = true ∧ inExpression = false ∧ second.refusesLine = true)
    (hsecond : ¬AtStop T.k T.k' p s.rest s'.rest →
      v.Holds T F asIs (second.read self s) (second.read self' s')) :
    v.Holds T F asIs ((seq (goesOn inExpression) second).read self s)
      ((seq (goesOn inExpression) second).read self' s') := by
  obtain ⟨hmode, hbehind⟩ := h.stands.behind hend
  obtain hstop | ⟨t, p', hat⟩ := h.alike.twins.code hmode
  · obtain ⟨hleft, hright⟩ := h.failed_goesOn_of_atStop hF hopens hopens' hstop inExpression hstops
      (hline (h.stands.isOut hF hstop.out))
    exact Verdict.holds_of_failed hleft hright v
  · have hcalm := hat.calm hbehind
    rw [Rule.read, Rule.read, Rule.read, Rule.read]
    refine Verdict.holds_guarded (fun _ => hsecond hat.not_atStop) fun hne => ?_
    -- the answers differ before a closing bracket only
    have hbracket : t = .mark [')'] ∨ t = .mark [']'] := by
      by_contra hother
      rw [not_or] at hother
      have hends := hcalm.ends inExpression hother.1 hother.2
      refine hne ?_
      rw [Scan.endsStatement_eq, Scan.endsStatement_eq, h.alike.left.sight, h.alike.right.sight]
      by_cases hout : p.isOut = true
      · obtain ⟨hleft, hright⟩ := hcalm.out inExpression (Spot.isOut_iff.1 hout).1
        rw [hleft, hright, Bool.and_false, Bool.and_false]
      · rw [hends, h.breaks_eq hF heven (by simpa using hout)]
    have hmark : ∃ m ∈ stopMarks, t = .mark m.toList := by
      obtain rfl | rfl := hbracket
      · exact ⟨")", by decide, rfl⟩
      · exact ⟨"]", by decide, rfl⟩
    refine ⟨failed_of_refuses hopens hstops (.inr ?_), failed_of_refuses hopens' hstops (.inr ?_)⟩
    · rwa [h.alike.left.token, hat.left]
    · rwa [h.alike.right.token, hat.right]

theorem Fits.holds_sameLine (hF : F.IsSound) (hopens : OpenWith self) (hopens' : OpenWith self')
    (h : Fits T F asIs st p s s') (hend : st.mayEnd = true)
    (heven : st.isEven F.level asIs = true) (hquiet : second.refuses quietMarks = true)
    (hout : st.isOut F.level = false)
    (hsecond : v.Holds T F asIs (second.read self s) (second.read self' s')) :
    v.Holds T F asIs ((seq sameLine second).read self s) ((seq sameLine second).read self' s') := by
  obtain ⟨hmode, hbehind⟩ := h.stands.behind hend
  have hin := h.stands.isOut_eq_false hF hout
  rw [Rule.read, Rule.read, Rule.read, Rule.read]
  refine Verdict.holds_guarded (fun _ => hsecond) fun hne => ?_
  obtain hstop | ⟨t, p', hat⟩ := h.alike.twins.code hmode
  · rw [hstop.out] at hin
    cases hin
  have hbroken : (Sight.ofText s.rest).isBroken ≠ (Sight.ofText s'.rest).isBroken := by
    intro heq
    have hleft : s.next.gap.isBroken = _ := congrArg Sight.isBroken h.alike.left.sight
    have hright : s'.next.gap.isBroken = _ := congrArg Sight.isBroken h.alike.right.sight
    exact hne (by rw [hleft, hright, heq, h.breaks_eq hF heven hin])
  have hmark := (hat.calm hbehind).broken hbroken
  refine ⟨failed_of_refuses hopens hquiet (.inr ?_), failed_of_refuses hopens' hquiet (.inr ?_)⟩
  · rwa [h.alike.left.token, hat.left]
  · rwa [h.alike.right.token, hat.right]

end

/-- A token behind which the brackets are the same. -/
theorem turn_semicolon (n : Nest) : n.turn (turnOf ";") = some n := by
  rw [show turnOf ";" = .stays by decide]
  rfl

/-- In braces a statement ends in both texts, or in none of them. -/
theorem Fits.ends_eq (hF : F.IsSound) (h : Fits T F asIs st p s s') (hend : st.mayEnd = true)
    (hout : st.isOut F.level = false) : ∃ t p', AtToken T.k T.k' p s.rest s'.rest t p' ∧
      (t ≠ .mark [')'] → t ≠ .mark [']'] → ∀ inExpression,
        s.endsStatement inExpression = s'.endsStatement inExpression) := by
  obtain ⟨hmode, hbehind⟩ := h.stands.behind hend
  obtain hstop | ⟨t, p', hat⟩ := h.alike.twins.code hmode
  · have hin := h.stands.isOut_eq_false hF hout
    rw [hstop.out] at hin
    cases hin
  · refine ⟨t, p', hat, fun hround hsquare inExpression => ?_⟩
    rw [Scan.endsStatement_eq, Scan.endsStatement_eq, h.alike.left.sight, h.alike.right.sight]
    exact (hat.calm hbehind).ends inExpression hround hsquare

theorem Fits.holds_semicolon (hF : F.IsSound) (h : Fits T F asIs st p s s') (inExpression : Bool)
    (hend : st.mayEnd = true) (hcurly : st.stack.head? = some .curly) :
    (Verdict.reads { st with before := st.before.or (.only .opening) }).Holds T F asIs
      (s.acceptSemicolon inExpression) (s'.acceptSemicolon inExpression) := by
  obtain ⟨rest, hstack⟩ : ∃ rest, st.stack = .curly :: rest := by
    rcases hst : st.stack with _ | ⟨c, rest⟩
    · rw [hst] at hcurly
      cases hcurly
    · rw [hst] at hcurly
      exact ⟨rest, by rw [Option.some.inj hcurly]⟩
  have hout : st.isOut F.level = false := by simp [Stand.isOut, hstack]
  obtain ⟨t, p', hat, hends⟩ := h.ends_eq hF hend hout
  have hround : t ≠ .mark [')'] := by
    rintro rfl
    have hnext := hat.next
    simp only [Spot.read, show turnOf (String.ofList [')']) = .closes .round by decide, Nest.turn,
      h.stands.stack, hstack] at hnext
    cases hnext
  have hsquare : t ≠ .mark [']'] := by
    rintro rfl
    have hnext := hat.next
    simp only [Spot.read, show turnOf (String.ofList [']']) = .closes .square by decide, Nest.turn,
      h.stands.stack, hstack] at hnext
    cases hnext
  unfold Scan.acceptSemicolon
  rw [h.alike.left.token, h.alike.right.token, hat.left, hat.right, hends hround hsquare]
  by_cases hmark : t = .mark [';']
  · subst hmark
    have hnext := hat.next
    simp only [Spot.read, show String.ofList [';'] = ";" from rfl, turn_semicolon] at hnext
    obtain rfl := Option.some.inj hnext
    have hover : Stand.Over F { st with before := st.before.or (.only .opening) }
        ⟨p.toNest, p.behindMark ";"⟩ :=
      ⟨h.stands.toOver, by
        rw [Before.has_or, p.behindMark_semicolon, Before.has_only, Bool.or_true]⟩
    exact .inr ⟨_, _, _, rfl, rfl, h.take hat rfl hover⟩
  · have hover : Stand.Over F { st with before := st.before.or (.only .opening) } p :=
      ⟨h.stands.toOver, by rw [Before.has_or, h.stands.before]; rfl⟩
    have hno : (t == .mark [';']) = false := by simpa using hmark
    rw [hno, if_neg Bool.false_ne_true, if_neg Bool.false_ne_true]
    cases s'.endsStatement inExpression with
    | false => exact Verdict.holds_of_failed (failed_error _) (failed_error _) _
    | true =>
      refine .inr ⟨p, _, _, rfl, rfl, ⟨⟨h.alike.left.pushNearComments,
        h.alike.right.pushNearComments, h.alike.twins⟩, hover, fun hmade => ?_, h.room, h.moved,
        h.kept, h.even⟩⟩
      obtain ⟨hleft, hright⟩ := h.made hmade
      exact ⟨by simp [Scan.pushNearComments, hleft], by simp [Scan.pushNearComments, hright]⟩

/-- A choice between marks reads the next token if it is one of them. -/
theorem failed_marks_iff {self : Goal → Scan → Reading} {rule : Rule Goal} {ms : List String}
    (h : rule.marks? = some ms) :
    (rule.read self s).Failed ↔ ∀ m ∈ ms, s.next.token ≠ .mark m.toList := by
  induction rule generalizing s ms with
  | mark m =>
    obtain rfl := Option.some.inj h
    rw [Rule.read, Scan.accept, List.forall_mem_singleton]
    split_ifs with htoken
    · exact iff_of_false not_failed_ok (not_not.2 (beq_iff_eq.1 htoken))
    · exact iff_of_true (failed_error _) (by simpa using htoken)
  | choice first second ihfirst ihsecond =>
    obtain ⟨ms, hms, hmore⟩ := Option.bind_eq_some_iff.1 h
    obtain ⟨ms', hms', rfl⟩ := Option.map_eq_some_iff.1 hmore
    rw [List.forall_mem_append, ← ihfirst hms]
    simp only [Rule.read]
    rcases first.read self s with reach | t
    · exact (ihsecond hms').trans ⟨fun hmore => ⟨failed_error _, hmore⟩, And.right⟩
    · exact iff_of_false not_failed_ok fun hboth => not_failed_ok hboth.1
  | _ => cases h

theorem failed_acceptSemicolon_iff {inExpression : Bool} : (s.acceptSemicolon inExpression).Failed ↔
    s.next.token ≠ .mark [';'] ∧ s.endsStatement inExpression = false := by
  unfold Scan.acceptSemicolon
  split_ifs with htoken hends
  · exact iff_of_false not_failed_ok fun hboth => hboth.1 (beq_iff_eq.1 htoken)
  · exact iff_of_false not_failed_ok fun hboth => by simp [hends] at hboth
  · exact iff_of_true (failed_error _) ⟨by simpa using htoken, by simpa using hends⟩

theorem failed_choice_iff {self : Goal → Scan → Reading} {first second : Rule Goal} :
    ((choice first second).read self s).Failed ↔ ∃ reach, first.read self s = .error reach ∧
      (second.read self { s with reach := reach }).Failed := by
  simp only [Rule.read]
  rcases first.read self s with reach | t
  · simp
  · simp [not_failed_ok]

/-- What is looked for ahead is there in both texts, or in none of them. -/
theorem Fits.holds_ahead (h : Fits T F asIs st p s s') {self self' : Goal → Scan → Reading}
    {rule : Rule Goal} (hrule : (rule.read self s).Failed ↔ (rule.read self' s').Failed) :
    (Verdict.reads st).Holds T F asIs ((ahead rule).read self s) ((ahead rule).read self' s') := by
  simp only [Rule.read]
  rcases hread : rule.read self s with reach | t <;> rcases hread' : rule.read self' s' with reach' | t'
  · exact Verdict.holds_of_failed (failed_error _) (failed_error _) _
  · rw [hread, hread'] at hrule
    exact absurd (hrule.1 (failed_error _)) not_failed_ok
  · rw [hread, hread'] at hrule
    exact absurd (hrule.2 (failed_error _)) not_failed_ok
  · exact .inr ⟨p, s, s', rfl, rfl, h⟩

/-- Whether a statement ends here, or one of some marks stands here, has the same answer in both
texts, if closing brackets are among the marks. -/
theorem Fits.holds_aheadOfEnd (hF : F.IsSound) (h : Fits T F asIs st p s s') (inExpression : Bool)
    {self self' : Goal → Scan → Reading} {others : Rule Goal} {ms : List String}
    (hend : st.mayEnd = true) (hout : st.isOut F.level = false) (hms : others.marks? = some ms)
    (hround : ")" ∈ ms) (hsquare : "]" ∈ ms) :
    (Verdict.reads st).Holds T F asIs
      ((ahead (choice (semicolon inExpression) others)).read self s)
      ((ahead (choice (semicolon inExpression) others)).read self' s') := by
  obtain ⟨t, p', hat, hends⟩ := h.ends_eq hF hend hout
  have hleft := h.alike.left.token.trans hat.left
  have hright := h.alike.right.token.trans hat.right
  refine h.holds_ahead ?_
  have hothers : ∀ reach reach', (others.read self { s with reach := reach }).Failed ↔
      (others.read self' { s' with reach := reach' }).Failed := by
    intro reach reach'
    rw [failed_marks_iff hms, failed_marks_iff hms, hleft, hright]
  have hread : ∀ m ∈ ms, t = .mark m.toList → ∀ reach,
      ¬(others.read self { s with reach := reach }).Failed := by
    intro m hm htoken reach hfailed
    rw [failed_marks_iff hms] at hfailed
    exact hfailed m hm (hleft.trans htoken)
  rw [failed_choice_iff, failed_choice_iff]
  by_cases hbracket : t = .mark [')'] ∨ t = .mark [']']
  · have hsome : ∀ reach, ¬(others.read self { s with reach := reach }).Failed := by
      obtain rfl | rfl := hbracket
      · exact hread ")" hround rfl
      · exact hread "]" hsquare rfl
    refine iff_of_false ?_ ?_
    · rintro ⟨reach, -, hfailed⟩
      exact hsome reach hfailed
    · rintro ⟨reach, -, hfailed⟩
      exact hsome 0 ((hothers 0 reach).2 hfailed)
  · rw [not_or] at hbracket
    have hsemicolon : (s.acceptSemicolon inExpression).Failed ↔
        (s'.acceptSemicolon inExpression).Failed := by
      rw [failed_acceptSemicolon_iff, failed_acceptSemicolon_iff, hleft, hright,
        hends hbracket.1 hbracket.2]
    constructor
    · rintro ⟨reach, hreach, hfailed⟩
      obtain ⟨reach', hreach'⟩ := hsemicolon.1 ⟨reach, hreach⟩
      exact ⟨reach', hreach', (hothers _ _).1 hfailed⟩
    · rintro ⟨reach', hreach', hfailed⟩
      obtain ⟨reach, hreach⟩ := hsemicolon.2 ⟨reach', hreach'⟩
      exact ⟨reach, hreach, (hothers _ _).2 hfailed⟩

end ServiceScaffold.Syntax
