import ServiceScaffold.Proofs.Syntax.TokensAlike

/-!
# Rules put together for two texts

What has been told of the parts of a rule holds of the whole, one lemma for each way to put rules
together.

* `Verdict.Holds.choice`, `Verdict.Holds.seq` : choices and sequences;
* `Fits.close`, `Fits.withField` : nodes and their parts;
* `Fits.holds_substitution`, `Fits.holds_regex` : templates, and what stands in no type;
* `Fits.holds_many` : repetitions.
-/

namespace ServiceScaffold.Syntax

open Rule

variable {T : Pair} {F : Frame} {asIs : Bool} {st : Stand} {p : Spot} {s s' : Scan} {r r' : Reading}
  {v : Verdict}

/-! ### Rules from their parts -/

/-- Less is known of the states. -/
theorem Fits.weaken (h : Fits T F asIs st p s s') {less : Stand} (hnest : less.toNest = st.toNest)
    (hbefore : ∀ b, st.before.has b = true → less.before.has b = true)
    (hmoved : less.moved = true → st.moved = true) (hmade : less.made = true → st.made = true) :
    Fits T F asIs less p s s' :=
  ⟨h.alike, ⟨hnest ▸ h.stands.toOver, hbefore _ h.stands.before⟩, fun hm => h.made (hmade hm), h.room,
    fun hm => h.moved (hmoved hm), h.kept, h.even⟩

theorem Fits.withReach (h : Fits T F asIs st p s s') (reach reach' : Nat) :
    Fits T F asIs st p { s with reach := reach } { s' with reach := reach' } :=
  ⟨⟨h.alike.left.ofSame rfl rfl rfl rfl h.alike.left.quiet,
    h.alike.right.ofSame rfl rfl rfl rfl h.alike.right.quiet, h.alike.twins⟩, h.stands, h.made, h.room,
    h.moved, h.kept, h.even⟩

/-- Where the first rule of a choice is read, that is what comes of the choice. -/
theorem Verdict.Holds.join_left {t t' : Scan} {w : Verdict}
    (h : v.Holds T F asIs (.ok t) (.ok t')) : (v.join w).Holds T F asIs (.ok t) (.ok t') := by
  have hboth : Verdict.Holds T F asIs (.ok t) (.ok t') .alike :=
    iff_of_false not_failed_ok not_failed_ok
  cases v with
  | unsure => cases w <;> trivial
  | never => exact absurd h.1 not_failed_ok
  | alike => cases w <;> trivial
  | reads a =>
    cases w with
    | unsure => trivial
    | never => exact h
    | alike => exact hboth
    | reads b =>
      simp only [Verdict.join]
      split_ifs with hnest
      · obtain ⟨hfailed, -⟩ | ⟨p, u, u', hu, hu', hfits⟩ := h
        · exact absurd hfailed not_failed_ok
        · refine .inr ⟨p, u, u', hu, hu', hfits.weaken rfl (fun x hx => ?_) (fun hm => ?_)
            fun hm => ?_⟩
          · rw [Before.has_or, hx, Bool.true_or]
          · exact (Bool.and_eq_true_iff.1 hm).1
          · exact (Bool.and_eq_true_iff.1 hm).1
      · exact hboth

/-- Where the first rule of a choice fails, the second one is read. -/
theorem Verdict.Holds.join_right {w : Verdict} (h : w.Holds T F asIs r r') :
    (v.join w).Holds T F asIs r r' := by
  cases v with
  | unsure => cases w <;> trivial
  | never => cases w <;> exact h
  | alike => cases w with
    | unsure => trivial
    | never => exact Verdict.holds_of_failed h.1 h.2 _
    | alike => exact h
    | reads b => exact h.failed_iff (by simp)
  | reads a => cases w with
    | unsure => trivial
    | never => exact Verdict.holds_of_failed h.1 h.2 _
    | alike => exact h
    | reads b =>
      simp only [Verdict.join]
      split_ifs with hnest
      · obtain ⟨hleft, hright⟩ | ⟨p, u, u', hu, hu', hfits⟩ := h
        · exact Verdict.holds_of_failed hleft hright _
        · refine .inr ⟨p, u, u', hu, hu', hfits.weaken hnest (fun x hx => ?_) (fun hm => ?_)
            fun hm => ?_⟩
          · rw [Before.has_or, hx, Bool.or_true]
          · exact (Bool.and_eq_true_iff.1 hm).2
          · exact (Bool.and_eq_true_iff.1 hm).2
      · exact h.failed_iff (by simp)

section

variable {self self' : Goal → Scan → Reading} {first second rule : Rule Goal} {w : Verdict}

theorem Verdict.Holds.choice (h : v.Holds T F asIs (first.read self s) (first.read self' s'))
    (hsecond : ∀ reach reach', w.Holds T F asIs (second.read self { s with reach := reach })
      (second.read self' { s' with reach := reach' })) :
    (v.join w).Holds T F asIs ((choice first second).read self s)
      ((choice first second).read self' s') := by
  simp only [Rule.read]
  rcases hread : first.read self s with reach | t <;>
    rcases hread' : first.read self' s' with reach' | t' <;> rw [hread, hread'] at h
  · exact (hsecond reach reach').join_right
  · have hunsure : v = .unsure := by
      by_contra hv
      exact absurd ((h.failed_iff hv).1 (failed_error _)) not_failed_ok
    subst hunsure
    cases w <;> trivial
  · have hunsure : v = .unsure := by
      by_contra hv
      exact absurd ((h.failed_iff hv).2 (failed_error _)) not_failed_ok
    subst hunsure
    cases w <;> trivial
  · exact h.join_left

/-- What is read after something else. -/
theorem Verdict.Holds.seq {next : Stand}
    (h : (Verdict.reads next).Holds T F asIs (first.read self s) (first.read self' s'))
    (hsecond : ∀ p t t', Fits T F asIs next p t t' →
      v.Holds T F asIs (second.read self t) (second.read self' t')) :
    v.Holds T F asIs ((Rule.seq first second).read self s)
      ((Rule.seq first second).read self' s') := by
  obtain ⟨hleft, hright⟩ | ⟨p, t, t', ht, ht', hfits⟩ := h
  · exact Verdict.holds_of_failed (hleft.bind _) (hright.bind _) _
  · rw [Rule.read, Rule.read, ht, ht']
    exact hsecond p t t' hfits

/-- What is read is changed alike in both texts. -/
theorem Verdict.Holds.map {asIs' : Bool} {next next' : Stand} {f f' : Scan → Scan}
    (h : (Verdict.reads next).Holds T F asIs r r')
    (hmap : ∀ p t t', Fits T F asIs next p t t' → Fits T F asIs' next' p (f t) (f' t')) :
    (Verdict.reads next').Holds T F asIs' (r.map f) (r'.map f') := by
  obtain ⟨hleft, hright⟩ | ⟨p, t, t', rfl, rfl, hfits⟩ := h
  · exact Verdict.holds_of_failed (hleft.map _) (hright.map _) _
  · exact .inr ⟨p, f t, f' t', rfl, rfl, hmap p t t' hfits⟩

end

/-! ### Nodes -/

section

variable {next : Stand} {t t' : Scan} {kind : NodeKind}

/-- Reading goes on with other nodes. -/
theorem Fits.withChildren (h : Fits T F asIs st p s s') {nodes nodes' : List Node} (made : Bool)
    (hnodes : ∀ n ∈ nodes, n.IsQuiet) (hnodes' : ∀ n ∈ nodes', n.IsQuiet)
    (hmade : made = true → nodes ≠ [] ∧ nodes' ≠ []) :
    Fits T F asIs { st with made := made } p { s with children := nodes }
      { s' with children := nodes' } :=
  ⟨⟨h.alike.left.ofSame rfl rfl rfl rfl hnodes, h.alike.right.ofSame rfl rfl rfl rfl hnodes',
    h.alike.twins⟩, ⟨h.stands.toOver, h.stands.before⟩, hmade, h.room, h.moved, h.kept, h.even⟩

theorem Fits.pushComments (h : Fits T F asIs st p s s') :
    Fits T F asIs st p s.pushComments s'.pushComments :=
  ⟨⟨h.alike.left.pushComments, h.alike.right.pushComments, h.alike.twins⟩, h.stands, fun hm =>
    ⟨by simp [Scan.pushComments, (h.made hm).1], by simp [Scan.pushComments, (h.made hm).2]⟩,
    h.room, h.moved, h.kept, h.even⟩

/-- What has been read for a node is closed. -/
theorem Fits.close {u u' : Scan} (h : Fits T F asIs next p t t') (hkind : kind.isQuiet = true)
    (hu : u.IsReady T.source) (hu' : u'.IsReady T.source') (start start' : Location) (made : Bool) :
    Fits T F asIs { next with made := made } p (u.close t kind start) (u'.close t' kind start') :=
  ⟨⟨hu.close h.alike.left hkind, hu'.close h.alike.right hkind, h.alike.twins⟩,
    ⟨h.stands.toOver, h.stands.before⟩, fun _ => ⟨List.cons_ne_nil _ _, List.cons_ne_nil _ _⟩, h.room,
    h.moved, h.kept, h.even⟩

/-- The node read last gets a part in its parent. -/
theorem Fits.withField (field : FieldName) (h : Fits T F asIs next p t t') :
    Fits T F asIs next p
      (match t.children with
        | last :: earlier => { t with children := last.withField field :: earlier }
        | [] => t)
      (match t'.children with
        | last :: earlier => { t' with children := last.withField field :: earlier }
        | [] => t') := by
  have hquiet : ∀ {last : Node} {earlier : List Node}, (∀ n ∈ last :: earlier, n.IsQuiet) →
      ∀ n ∈ last.withField field :: earlier, n.IsQuiet := by
    intro last earlier hall n hn
    obtain rfl | hold := List.mem_cons.1 hn
    · exact (hall last List.mem_cons_self).withField field
    · exact hall n (List.mem_cons_of_mem _ hold)
  have hleft := h.alike.left.quiet
  have hright := h.alike.right.quiet
  rcases hc : t.children with _ | ⟨last, earlier⟩ <;>
    rcases hc' : t'.children with _ | ⟨last', earlier'⟩ <;>
    rw [hc] at hleft <;> rw [hc'] at hright
  · exact h
  · exact ⟨⟨h.alike.left, h.alike.right.ofSame rfl rfl rfl rfl (hquiet hright), h.alike.twins⟩,
      h.stands, fun hm => absurd hc (h.made hm).1, h.room, h.moved, h.kept, h.even⟩
  · exact ⟨⟨h.alike.left.ofSame rfl rfl rfl rfl (hquiet hleft), h.alike.right, h.alike.twins⟩,
      h.stands, fun hm => absurd hc' (h.made hm).2, h.room, h.moved, h.kept, h.even⟩
  · exact ⟨⟨h.alike.left.ofSame rfl rfl rfl rfl (hquiet hleft),
      h.alike.right.ofSame rfl rfl rfl rfl (hquiet hright), h.alike.twins⟩, h.stands,
      fun _ => ⟨List.cons_ne_nil _ _, List.cons_ne_nil _ _⟩, h.room, h.moved, h.kept, h.even⟩

/-- Lines end statements or not, for one rule. -/
theorem Fits.withBreaks (h : Fits T F asIs st p s s') (breaks : Bool) :
    Fits T F false st p { s with breaks := breaks } { s' with breaks := breaks } :=
  ⟨⟨h.alike.left.ofSame rfl rfl rfl rfl h.alike.left.quiet,
    h.alike.right.ofSame rfl rfl rfl rfl h.alike.right.quiet, h.alike.twins⟩, h.stands, h.made, h.room,
    h.moved, nofun, fun _ => rfl⟩

theorem Fits.restored (h : Fits T F asIs st p s s') {q : Spot} (ht : Fits T F false next q t t') :
    Fits T F asIs next q { t with breaks := s.breaks } { t' with breaks := s'.breaks } :=
  ⟨⟨ht.alike.left.ofSame rfl rfl rfl rfl ht.alike.left.quiet,
    ht.alike.right.ofSame rfl rfl rfl rfl ht.alike.right.quiet, ht.alike.twins⟩, ht.stands, ht.made,
    ht.room, ht.moved, h.kept, h.even⟩

end

/-! ### Templates -/

theorem sight_backQuote (cs : List Char) :
    Sight.ofText ('`' :: cs) = ⟨.backQuote, cs, '`' :: cs, false, true⟩ := by
  rw [Sight.ofText_token (startsToken_cons (by decide) (by decide) _)]
  rfl

theorem token_substitution (cs : List Char) :
    (Sight.ofText ('$' :: '\x7b' :: cs)).token ≠ .backQuote := by
  rw [Sight.ofText_token (startsToken_cons (by decide) (by decide) _)]
  rcases hname : name? ('$' :: '\x7b' :: cs) with _ | ⟨name, rest⟩
  · simp [name?, show isNameStart '$' = true by decide] at hname
  · simp [Token.ofText, hname]

theorem Fits.passTemplateText (h : Fits T F asIs st p s s') (hmode : st.mode = .text) :
    Fits T F asIs { st with mode := .edge } { p with mode := .edge } s.passTemplateText
      s'.passTemplateText := by
  have hle := (templateTail_suffix s.rest).length_le
  have hle' := (templateTail_suffix s'.rest).length_le
  refine ⟨⟨h.alike.left.passTemplateText, h.alike.right.passTemplateText,
    h.alike.twins.text_tail (h.stands.mode.trans hmode)⟩,
    ⟨⟨h.stands.stack, h.stands.angles, rfl⟩, h.stands.before⟩, h.made,
    ⟨hle.trans h.room.1, hle'.trans h.room.2⟩, fun hm => ?_, h.kept, h.even⟩
  exact ⟨lt_of_le_of_lt hle (h.moved hm).1, lt_of_le_of_lt hle' (h.moved hm).2⟩

theorem Scan.IsReady.acceptSubstitution {source cs : List Char} (h : s.IsReady source)
    (hrest : s.rest = '$' :: '\x7b' :: cs) : ∃ t, s.acceptSubstitution = .ok t ∧ t.IsReady source ∧
      t.rest = cs ∧ t.breaks = s.breaks ∧ t.children ≠ [] := by
  unfold Scan.acceptSubstitution
  split
  · rename_i tail htail
    rw [hrest] at htail
    obtain rfl : cs = tail := by simpa using htail
    have hsuffix : cs <:+ s.rest := hrest ▸ ⟨['$', '\x7b'], rfl⟩
    exact ⟨_, rfl, (h.push (isQuiet_mk rfl (by simp))).moveTo (h.sees.placed.skipTo hsuffix), rfl,
      rfl, List.cons_ne_nil _ _⟩
  · rename_i hno
    exact absurd hrest (hno cs)

theorem Fits.holds_substitution (h : Fits T F asIs st p s s') (hmode : st.mode = .edge) :
    (Verdict.reads { st.after (.only .opening) with
      stack := .hole :: st.stack, mode := .code }).Holds T F asIs s.acceptSubstitution
      s'.acceptSubstitution := by
  obtain ⟨cs, cs', hrest, hrest', htwins⟩ | ⟨cs, cs', hrest, hrest', -⟩ :=
    h.alike.twins.edge (h.stands.mode.trans hmode)
  · obtain ⟨t, ht, hready, htext, hbreaks, hmade⟩ := h.alike.left.acceptSubstitution hrest
    obtain ⟨t', ht', hready', htext', hbreaks', hmade'⟩ := h.alike.right.acceptSubstitution hrest'
    have hroom := h.room
    rw [hrest, hrest', List.length_cons, List.length_cons, List.length_cons, List.length_cons]
      at hroom
    refine .inr ⟨⟨⟨.hole :: p.stack, p.angles, .code⟩, .opening⟩, t, t', ht, ht',
      ⟨⟨hready, hready', by rw [htext, htext']; exact htwins⟩,
      ⟨⟨congrArg (Bracket.hole :: ·) h.stands.stack, h.stands.angles, rfl⟩, rfl⟩,
      fun _ => ⟨hmade, hmade'⟩, ?_, fun _ => ?_, ?_, ?_⟩⟩
    · rw [htext, htext']
      omega
    · rw [htext, htext']
      omega
    · rw [hbreaks, hbreaks']
      exact h.kept
    · rw [hbreaks, hbreaks']
      exact h.even
  · refine Verdict.holds_of_failed ?_ ?_ _
    · simp only [Scan.acceptSubstitution, hrest]
      exact failed_error _
    · simp only [Scan.acceptSubstitution, hrest']
      exact failed_error _

/-- At the end of a template, or of a piece of its text. -/
theorem Fits.holds_closingQuote (h : Fits T F asIs st p s s') (hmode : st.mode = .edge)
    {kind : NodeKind} (hkind : kind.isQuiet = true) :
    (Verdict.reads { st.after (.only .closed) with mode := .code }).Holds T F asIs
      (s.accept (· == .backQuote) kind) (s'.accept (· == .backQuote) kind) := by
  have htoken := h.alike.left.token
  have htoken' := h.alike.right.token
  have hroom := h.room
  obtain ⟨cs, cs', hrest, hrest', -⟩ | ⟨cs, cs', hrest, hrest', htwins⟩ :=
    h.alike.twins.edge (h.stands.mode.trans hmode)
  · rw [hrest] at htoken
    rw [hrest'] at htoken'
    refine Verdict.holds_of_failed (failed_accept ?_) (failed_accept ?_) _
    · rw [htoken]
      exact beq_eq_false_iff_ne.2 (token_substitution cs)
    · rw [htoken']
      exact beq_eq_false_iff_ne.2 (token_substitution cs')
  · have htail : (s.take kind).rest = cs :=
      h.alike.left.tail.trans (by rw [hrest, sight_backQuote])
    have htail' : (s'.take kind).rest = cs' :=
      h.alike.right.tail.trans (by rw [hrest', sight_backQuote])
    rw [hrest, sight_backQuote] at htoken
    rw [hrest', sight_backQuote] at htoken'
    rw [hrest, hrest', List.length_cons, List.length_cons] at hroom
    refine .inr ⟨⟨⟨p.stack, p.angles, .code⟩, .closed⟩, s.take kind, s'.take kind,
      if_pos (beq_iff_eq.2 htoken), if_pos (beq_iff_eq.2 htoken'),
      ⟨⟨h.alike.left.take hkind, h.alike.right.take hkind, by rw [htail, htail']; exact htwins⟩,
        ⟨⟨h.stands.stack, h.stands.angles, rfl⟩, rfl⟩,
        fun _ => ⟨List.cons_ne_nil _ _, List.cons_ne_nil _ _⟩, ?_, fun _ => ?_, h.kept, h.even⟩⟩
    · rw [htail, htail']
      omega
    · rw [htail, htail']
      omega

/-! ### Regular expressions -/

/-- No regular expression starts where no slash may. -/
theorem failed_acceptRegex {source : List Char} (h : s.IsReady source)
    (hallowed : p.forbids (Sight.ofText s.rest).token = false) : s.acceptRegex.Failed := by
  unfold Scan.acceptRegex
  dsimp only
  split
  · rename_i rest hrest
    have hbody : (Sight.ofText s.rest).body = '/' :: rest :=
      (congrArg Sight.body h.sight).symm.trans hrest
    have htoken : (Sight.ofText s.rest).token = (Token.ofText (Sight.ofText s.rest).body).1 := by
      rw [sight_eq]
    obtain ⟨m, hm, hhead⟩ := exists_mark_of_slash rest
    rw [htoken, hbody, hm] at hallowed
    simp [Spot.forbids, hhead] at hallowed
  · exact failed_error _

theorem Fits.holds_regex (hF : F.IsSound) (h : Fits T F asIs st p s s') (hmode : st.mode = .code)
    (hout : st.isOut F.level = false) :
    Verdict.never.Holds T F asIs s.acceptRegex s'.acceptRegex := by
  obtain hstop | ⟨t, p', hat⟩ := h.alike.twins.code (h.stands.mode.trans hmode)
  · have hin := h.stands.isOut_eq_false hF hout
    rw [hstop.out] at hin
    cases hin
  · exact ⟨failed_acceptRegex h.alike.left (hat.left.symm ▸ hat.allowed),
      failed_acceptRegex h.alike.right (hat.right.symm ▸ hat.allowed)⟩

/-! ### Repetitions -/

section

variable {read read' : Scan → Reading}

theorem repeatedly_of_failed {reach : Nat} (h : read s = .error reach) (fuel : Nat) :
    s.repeatedly read (fuel + 1) = { s with reach := reach } := by
  simp only [Scan.repeatedly, h]

theorem repeatedly_of_ok {source : List Char} {t : Scan} (hs : s.IsReady source)
    (ht : t.IsReady source) (hlt : t.rest.length < s.rest.length) (h : read s = .ok t)
    (fuel : Nat) : s.repeatedly read (fuel + 1) = t.repeatedly read fuel := by
  have hmove : ¬((t.stop.offset = s.stop.offset && t.children.length = s.children.length) =
      true) := by
    simp [Placed.offset_ne hs.sees.placed ht.sees.placed hlt]
  simp only [Scan.repeatedly, h, if_neg hmove]

/-- The frame in which the rest of a text is read. -/
def Frame.behind (F : Frame) (s s' : Scan) : Frame :=
  { F with room := s.rest.length, room' := s'.rest.length }

theorem Fits.behind (h : Fits T F asIs st p s s') :
    Fits T (F.behind s s') asIs { st with moved := false } p s s' :=
  ⟨h.alike, ⟨⟨h.stands.stack, h.stands.angles, h.stands.mode⟩, h.stands.before⟩, h.made,
    ⟨le_rfl, le_rfl⟩, nofun, h.kept, h.even⟩

/-- What is read behind a place is read behind the start of the goal. -/
theorem Fits.ofBehind {t t' : Scan} {q : Spot} {next : Stand} (h : Fits T F asIs st p s s')
    (ht : Fits T (F.behind s s') asIs next q t t') :
    Fits T F asIs { next with moved := st.moved } q t t' := by
  obtain ⟨hroom, hroom'⟩ := ht.room
  refine ⟨ht.alike, ⟨⟨ht.stands.stack, ht.stands.angles, ht.stands.mode⟩, ht.stands.before⟩, ht.made,
    ⟨hroom.trans h.room.1, hroom'.trans h.room.2⟩, fun hm => ?_, ht.kept, ht.even⟩
  exact ⟨lt_of_le_of_lt hroom (h.moved hm).1, lt_of_le_of_lt hroom' (h.moved hm).2⟩

/-- Reading as often as possible ends at the same place in both texts, if each reading does. -/
theorem Fits.repeatedly {next : Stand}
    (hstep : ∀ p s s', Fits T F asIs st p s s' → (Verdict.reads next).Holds T (F.behind s s') asIs
      (read s) (read' s'))
    (hnest : next.toNest = st.toNest) (hmoved : next.moved = true) (hnextMade : next.made = true)
    (hbefore : st.before.or next.before = st.before) {fuel fuel' : Nat}
    (h : Fits T F asIs st p s s') (hfuel : s.rest.length < fuel) (hfuel' : s'.rest.length < fuel') :
    ∃ q, Fits T F asIs st q (s.repeatedly read fuel) (s'.repeatedly read' fuel') := by
  induction fuel generalizing fuel' p s s' with
  | zero => omega
  | succ fuel ih =>
    obtain ⟨fuel', rfl⟩ := Nat.exists_eq_succ_of_ne_zero (Nat.ne_of_gt (Nat.zero_lt_of_lt hfuel'))
    obtain ⟨⟨reach, hreach⟩, ⟨reach', hreach'⟩⟩ | ⟨q, t, t', ht, ht', hfits⟩ := hstep p s s' h
    · rw [repeatedly_of_failed hreach, repeatedly_of_failed hreach']
      exact ⟨p, h.withReach _ _⟩
    · obtain ⟨hlt, hlt'⟩ := hfits.moved hmoved
      have hlt : t.rest.length < s.rest.length := hlt
      have hlt' : t'.rest.length < s'.rest.length := hlt'
      rw [repeatedly_of_ok h.alike.left hfits.alike.left hlt ht,
        repeatedly_of_ok h.alike.right hfits.alike.right hlt' ht']
      refine ih ((h.ofBehind hfits).weaken hnest.symm (fun b hb => ?_) id fun _ => hnextMade)
        (by omega) (by omega)
      exact Before.has_of_or_eq hbefore hb

/-- The first reading of a repetition may make the first node. -/
theorem Fits.holds_many {one more : Stand} {before : Before}
    (hone : (Verdict.reads one).Holds T (F.behind s s') asIs (read s) (read' s'))
    (hmore : ∀ p s s', Fits T F asIs { st with before := before, made := true } p s s' →
      (Verdict.reads more).Holds T (F.behind s s') asIs (read s) (read' s'))
    (honeNest : one.toNest = st.toNest) (honeMoved : one.moved = true) (honeMade : one.made = true)
    (hmoreNest : more.toNest = st.toNest) (hmoreMoved : more.moved = true)
    (hmoreMade : more.made = true) (hbefore : before = st.before.or one.before)
    (hall : before.or more.before = before) (h : Fits T F asIs st p s s') :
    (Verdict.reads { st with before := before }).Holds T F asIs
      (.ok (s.repeatedly read (s.rest.length + 1)))
      (.ok (s'.repeatedly read' (s'.rest.length + 1))) := by
  obtain ⟨⟨reach, hreach⟩, ⟨reach', hreach'⟩⟩ | ⟨q, t, t', ht, ht', hfits⟩ := hone
  · rw [repeatedly_of_failed hreach, repeatedly_of_failed hreach']
    refine .inr ⟨p, _, _, rfl, rfl, (h.withReach _ _).weaken rfl (fun b hb => ?_) id id⟩
    rw [hbefore, Before.has_or, hb, Bool.true_or]
  · obtain ⟨hlt, hlt'⟩ := hfits.moved honeMoved
    rw [repeatedly_of_ok h.alike.left hfits.alike.left hlt ht,
      repeatedly_of_ok h.alike.right hfits.alike.right hlt' ht']
    have hfirst : Fits T F asIs { st with before := before, made := true } q t t' := by
      refine (h.ofBehind hfits).weaken honeNest.symm (fun b hb => ?_) id fun _ => honeMade
      rw [hbefore, Before.has_or, show one.before.has b = true from hb, Bool.or_true]
    obtain ⟨q', hrest⟩ := hfirst.repeatedly hmore hmoreNest hmoreMoved hmoreMade hall hlt hlt'
    exact .inr ⟨q', _, _, rfl, rfl, hrest.weaken rfl (fun _ hb => hb) id fun _ => rfl⟩

end

end ServiceScaffold.Syntax
