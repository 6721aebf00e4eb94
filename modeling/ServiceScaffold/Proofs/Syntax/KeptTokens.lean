import ServiceScaffold.Proofs.Syntax.ReadTypes
import ServiceScaffold.Proofs.Syntax.Transfer
import ServiceScaffold.Proofs.Syntax.TypeTexts

/-!
# Texts that keep their tokens

A type is extracted with every run of blanks as one space.  Its tokens may change by that: the end of
a line may have ended a comment or a statement.  If they do not, what has been read as a type is read
as one again, wherever its text is written.

* `keepsTokens` : the text of a type keeps its tokens;
* `twins_of_sameTokens` : so the texts are twins, whatever follows the shorter one;
* `Node.IsReadAsType.isType` : **the text of a type that keeps its tokens reads as a type**.

The test is enough, but it may fail for a type that is read again all the same: where a call signature
starts the line behind a type that no semicolon ends; where a line ends in brackets before `[` or
behind `extends`, or a type parameter has a default there; and where `async`, or an object type behind
a word, stands in square brackets.
-/

namespace ServiceScaffold.Syntax

open Text

/-! ### The test -/

/-- Blanks before a token make no difference: `a` is seen in a text, and `b` in the same text with
its blanks collapsed. -/
def Spot.isCalm (p : Spot) (a b : Sight) : Bool :=
  !b.isBroken &&
    ((a.token == .mark [')'] || a.token == .mark [']']) ||
      [false, true].all fun inExpression => a.ends inExpression == b.ends inExpression) &&
    (!p.stack.isEmpty || [false, true].all fun inExpression =>
      !a.ends inExpression && !b.ends inExpression) &&
    (!a.isBroken || quietMarks.any fun m => a.token == .mark m.toList)

/-- A type may end before what is seen. -/
def Spot.mayStop (p : Spot) (a : Sight) : Bool :=
  [.mark [';'], .mark [','], .mark ['\x7d'], .finish].contains a.token ||
    p.behind == .closed && (a.token.startsLine || a.token.joins && a.ends false)

/-- The texts `u`, up to the end `k` of it, and `v` have the same tokens in the same places. -/
def sameTokens (k : List Char) : Nat → Spot → List Char → List Char → Bool
  | 0, _, _, _ => false
  | fuel + 1, p, u, v =>
    match p.mode with
    | .code =>
      if v.isEmpty then u == k && p.isOut && p.mayStop (Sight.ofText k)
      else
        let a := Sight.ofText u
        let b := Sight.ofText v
        a.token == b.token && b.body.head? != some '/' && !p.forbids a.token &&
          (p.behind == .opening || p.behind == .arrow || p.isCalm a b) &&
          (p.read a.token).any fun p => sameTokens k fuel p a.tail b.tail
    | .text => sameTokens k fuel { p with mode := .edge } (templateTail u) (templateTail v)
    | .edge =>
      match u, v with
      | '$' :: '\x7b' :: u, '$' :: '\x7b' :: v =>
        sameTokens k fuel ⟨⟨.hole :: p.stack, p.angles, .code⟩, .opening⟩ u v
      | '`' :: u, '`' :: v => sameTokens k fuel ⟨⟨p.stack, p.angles, .code⟩, .closed⟩ u v
      | _, _ => false

/-- Where a type starts. -/
def Spot.typeStart : Spot := ⟨⟨[], 0, .code⟩, .opening⟩

/-- The text `v` has the tokens of a type whose text is `w`, with `k` behind it. -/
def keepsTokens (w k v : List Char) : Bool :=
  v.head?.any (fun c => !isSpace c && c != '/') &&
    sameTokens k (2 * v.length + 2) .typeStart (w ++ k) v

variable {source source' k k' u v w cs : List Char} {p : Spot} {s t : Scan} {n : Node}

/-! ### Longer texts -/

/-- Where no escape starts. -/
theorem templateTail_cons {c : Char} {rest : List Char} (h : c ≠ '\\') :
    templateTail (c :: rest) = if c = '`' then c :: rest
      else if c = '$' ∧ rest.head? = some '\x7b' then c :: rest else templateTail rest := by
  rw [templateTail]
  exact fun _ _ hc => absurd hc h

theorem templateTail_append (h : templateTail v ≠ []) :
    templateTail (v ++ k) = templateTail v ++ k := by
  fun_induction templateTail v with
  | case1 => exact absurd rfl h
  | case2 c rest ih =>
    rw [List.cons_append, List.cons_append, templateTail]
    exact ih h
  | case3 rest => rw [List.cons_append, templateTail_cons (by decide), if_pos rfl]
  | case4 c rest hslash hquote hhole =>
    obtain ⟨rfl, hhead⟩ := hhole
    rw [List.cons_append, templateTail_cons (by decide), if_neg (by decide),
      if_pos ⟨rfl, by rw [List.head?_append, hhead]; rfl⟩]
  | case5 c rest hslash hquote hhole ih =>
    have hne : rest ≠ [] := by
      rintro rfl
      exact h rfl
    obtain ⟨d, more, rfl⟩ := List.exists_cons_of_ne_nil hne
    have hc : c ≠ '\\' := fun hc => hslash d more hc rfl
    rw [List.cons_append, templateTail_cons hc, if_neg hquote]
    exact (if_neg hhole).trans (ih h)

theorem endsBeforeBrace_append (hk : EndsType k) (inExpression : Bool) :
    endsBeforeBrace inExpression (cs ++ k) = endsBeforeBrace inExpression cs := by
  unfold endsBeforeBrace
  rw [List.dropWhile_append]
  split
  · rename_i hnil
    rw [if_neg hk.colon, List.isEmpty_iff.1 hnil, if_neg nofun]
  · rename_i hne
    obtain ⟨c, rest, hrest⟩ := List.exists_cons_of_ne_nil fun hnil => hne (List.isEmpty_iff.2 hnil)
    rw [hrest]
    rfl

/-- What follows the text of a type does not end a statement in it. -/
theorem Sight.ends_append {b : Sight} {inExpression : Bool} (hk : EndsType k)
    (hbroken : b.isBroken = false) :
    Sight.ends { b with tail := b.tail ++ k, body := b.body ++ k } inExpression =
      b.ends inExpression := by
  simp only [Sight.ends, hbroken, endsBeforeBrace_append hk, Bool.false_eq_true, if_false]

/-! ### Twins -/

theorem Spot.calm_of_isCalm {a b : Sight} (hk : EndsType k) (h : p.isCalm a b = true) :
    Calm p a.token a { b with tail := b.tail ++ k, body := b.body ++ k } := by
  simp only [isCalm, Bool.and_eq_true, Bool.or_eq_true, Bool.not_eq_true', List.all_cons,
    List.all_nil, Bool.and_true, beq_iff_eq, List.any_eq_true] at h
  obtain ⟨⟨⟨hbroken, hends⟩, hout⟩, hquiet⟩ := h
  refine ⟨fun inExpression hround hsquare => ?_, fun inExpression hstack => ?_, fun hne => ?_⟩
  · rw [Sight.ends_append hk hbroken]
    obtain hbracket | ⟨hfalse, htrue⟩ := hends
    · exact absurd hbracket (not_or.2 ⟨hround, hsquare⟩)
    · cases inExpression
      · exact hfalse
      · exact htrue
  · rw [Sight.ends_append hk hbroken]
    obtain hsome | ⟨hfalse, htrue⟩ := hout
    · rw [hstack] at hsome
      cases hsome
    · cases inExpression
      · exact hfalse
      · exact htrue
  · obtain hflat | ⟨m, hm, htoken⟩ := hquiet
    · exact absurd (hflat.trans hbroken.symm) hne
    · exact ⟨m, hm, htoken⟩

theorem EndsType.stops (h : EndsType k) : (Sight.ofText k).token.stops := by
  have hlook := h.sign.look
  simp only [typeEnd, Look.Fits, List.mem_cons, List.not_mem_nil, or_false] at hlook
  exact hlook.elim .inl fun hbrace => .inr (.inr (.inl hbrace))

theorem Spot.stops_of_mayStop (hk' : EndsType k') (h : p.mayStop (Sight.ofText k) = true) :
    Stops p (Sight.ofText k) (Sight.ofText k') := by
  refine ⟨?_, hk'.stops⟩
  simp only [mayStop, Bool.or_eq_true, List.contains_iff_mem, Bool.and_eq_true, beq_iff_eq] at h
  refine h.imp_left fun hstops => ?_
  simpa [Token.stops] using hstops

/-- Behind the text of a template there is a substitution or the closing quote. -/
theorem edge_of_sameTokens {fuel : Nat} (hmode : p.mode = .edge)
    (h : sameTokens k (fuel + 1) p u v = true) :
    (∃ u' v', u = '$' :: '\x7b' :: u' ∧ v = '$' :: '\x7b' :: v' ∧
      sameTokens k fuel ⟨⟨.hole :: p.stack, p.angles, .code⟩, .opening⟩ u' v' = true) ∨
    ∃ u' v', u = '`' :: u' ∧ v = '`' :: v' ∧
      sameTokens k fuel ⟨⟨p.stack, p.angles, .code⟩, .closed⟩ u' v' = true := by
  simp only [sameTokens, hmode] at h
  split at h
  · exact .inl ⟨_, _, rfl, rfl, h⟩
  · exact .inr ⟨_, _, rfl, rfl, h⟩
  · cases h

/-- **Texts with the same tokens are twins**, whatever follows the second one. -/
theorem twins_of_sameTokens (hk' : EndsType k') {fuel : Nat} (h : sameTokens k fuel p u v = true) :
    Twins k k' p u (v ++ k') := by
  induction fuel generalizing p u v with
  | zero => cases h
  | succ fuel ih =>
    rcases hmode : p.mode
    case code =>
      simp only [sameTokens, hmode] at h
      split_ifs at h with hempty
      · obtain rfl := List.isEmpty_iff.1 hempty
        simp only [Bool.and_eq_true, beq_iff_eq] at h
        obtain ⟨⟨rfl, hout⟩, hstop⟩ := h
        exact .stop hout hmode (Spot.stops_of_mayStop hk' hstop)
      · simp only [Bool.and_eq_true, beq_iff_eq, bne_iff_ne, Bool.not_eq_true', Bool.or_eq_true,
          Option.any_eq_true] at h
        obtain ⟨⟨⟨⟨htoken, hslash⟩, hallowed⟩, hcalm⟩, q, hread, hrest⟩ := h
        have hfinish := Spot.ne_finish hread
        have hstray : (Sight.ofText u).token ≠ .stray := by
          intro hstray
          rw [hstray] at hread
          cases hread
        rw [htoken] at hfinish hstray
        have hlonger := Sight.ofText_append hk'.token hfinish hstray hslash
        refine .token hmode rfl (by rw [hlonger, htoken]) hallowed (fun hbehind => ?_) hread ?_
        · rw [hlonger]
          refine Spot.calm_of_isCalm hk' (hcalm.resolve_left ?_)
          rintro (hp | hp) <;> rw [hp] at hbehind <;> simp at hbehind
        · rw [hlonger]
          exact ih hrest
    case text =>
      simp only [sameTokens, hmode] at h
      refine .text hmode ?_
      have hne : templateTail v ≠ [] := by
        rcases fuel with _ | fuel
        · cases h
        · obtain ⟨u', v', -, hv, -⟩ | ⟨u', v', -, hv, -⟩ := edge_of_sameTokens rfl h <;> simp [hv]
      rw [templateTail_append hne]
      exact ih h
    case edge =>
      obtain ⟨u, v, rfl, rfl, hrest⟩ | ⟨u, v, rfl, rfl, hrest⟩ := edge_of_sameTokens hmode h
      · exact .hole hmode (ih hrest)
      · exact .quote hmode (ih hrest)

/-! ### Types read again -/

/-- Reading a type does not depend on the nodes read before it. -/
theorem readType_fresh {fuel : Nat} (h : readGoal grammar fuel .type s = .ok t) :
    ∃ u, readGoal grammar fuel .type { s with children := [] } = .ok u ∧ u.rest = t.rest := by
  rcases fuel with _ | fuel
  · cases h
  · obtain ⟨u, hu, rfl⟩ := Reading.exists_of_map_eq h
    let fresh : Scan := { s with children := [] }
    have hread : readGoal grammar (fuel + 1) .type fresh = _ := congrArg (Except.map _) hu
    exact ⟨fresh.pushComments.close u .typeNode s.next.start, hread, rfl⟩

/-- **What has been read as a type is read as one in a text that is its twin.** -/
theorem readsType_of_twins {fuel deep : Nat} (hs : s.Agrees source)
    (hstrict : s.isLenient = false) (hbreaks : s.breaks = true)
    (hread : readGoal grammar fuel .type s = .ok t)
    (hfuel : 40 * s.rest.length + Goal.type.rank < fuel)
    (htwins : Twins t.rest k' .typeStart s.rest cs) (hbody : (Sight.ofText cs).body = w ++ k')
    (hdeep : 40 * (cs.length - k'.length) + Goal.type.rank < deep) :
    ReadsType source' deep w cs k' := by
  intro fuel' hle
  obtain ⟨fuel', rfl⟩ := Nat.exists_eq_succ_of_ne_zero (Nat.ne_of_gt (Nat.zero_lt_of_lt
    (hdeep.trans_le hle)))
  obtain ⟨u, hu, hrest⟩ := readType_fresh hread
  refine Makes.mono (.ofRule (makes_node .typeNode (P := AllQuiet) fun s' hs' hstrict' => ?_))
    fun made hmade => hmade.mono fun n hn => ⟨hn.1, hn.2.1 w hbody, hn.2.2⟩
  -- both texts are read from states without nodes
  have hready : ({ s with children := [] } : Scan).IsReady source :=
    ⟨⟨hs.ofSame rfl rfl rfl, .nil⟩, hstrict, by simp⟩
  have hready' : ({ s' with children := [] } : Scan).IsReady source' :=
    ⟨hs'.atRest.ofSame rfl rfl rfl, hstrict', by simp⟩
  have hstart : CanStart ⟨source, source', t.rest, k'⟩ .type .outer .typeStart
      { s with children := [] } { s' with children := [] } := by
    refine ⟨⟨hready, hready', ?_⟩, rfl, rfl, nofun, nofun, nofun, fun _ => hbreaks⟩
    exact hs'.rest_eq ▸ htwins
  have hroom : 40 * (s.rest.length - t.rest.length) + Goal.type.rank < fuel := by omega
  have hroom' : 40 * (s'.rest.length - k'.length) + Goal.type.rank < fuel' + 1 :=
    lt_of_lt_of_le (hs'.rest_eq ▸ hdeep) hle
  obtain ⟨hfailed, -⟩ | ⟨-, q, v, v', hv, hv', hhas⟩ :=
    readsAlike_readGoal rfl hstart hroom hroom'
  · rw [hu] at hfailed
    exact absurd hfailed not_failed_ok
  · obtain rfl := Except.ok.inj (hu.symm.trans hv)
    have hmode : q.mode = .code := congrArg Nest.mode hhas.nest
    have htwins' : Twins t.rest k' q t.rest v'.rest := hrest ▸ hhas.alike.twins
    have hrest' : v'.rest = k' := htwins'.right_eq hmode
    obtain ⟨inner, hinner, rfl⟩ := Reading.exists_of_map_eq hv'
    refine ⟨inner, hinner, ?_, hhas.alike.right.strict, fun m hm => ?_⟩
    · exact hrest' ▸ hhas.alike.right.sees.ofSame rfl rfl rfl
    · exact (hhas.alike.right.quiet _ List.mem_cons_self).child hm

/-- What stands in the source behind a node. -/
def Node.textBehind (source : List Char) (n : Node) : List Char := dropBytes n.stop.offset source

/-- **What has been read as a type is one wherever its tokens are written down.** -/
theorem Node.IsReadAsType.isType (h : n.IsReadAsType source)
    (hkeeps : keepsTokens (n.text source) (n.textBehind source) v = true) :
    IsType (40 * (v.length + 2)) v := by
  obtain ⟨hhead, hsame⟩ := Bool.and_eq_true_iff.1 hkeeps
  obtain ⟨c, hc, hfirst⟩ := (Option.any_eq_true _ _).1 hhead
  simp only [Bool.and_eq_true, Bool.not_eq_true', bne_iff_ne] at hfirst
  have hstarts : ∀ k, StartsToken (v ++ k) := fun k => by
    obtain ⟨more, rfl⟩ := List.head?_eq_some_iff.1 hc
    exact startsToken_cons hfirst.1 hfirst.2 _
  refine ⟨hstarts, fun source' k' hk' => ?_⟩
  obtain ⟨fuel, s, t, hs, hstrict, hbreaks, hfuel, hread, hstart, hstop⟩ := h
  rw [textBehind, ← hstop.eq_dropBytes] at hsame
  obtain hatStop | ⟨token, q, hat⟩ := (twins_of_sameTokens hk' hsame).code rfl
  · -- the text has a token
    rw [List.append_left_eq_self.1 hatStop.right] at hc
    cases hc
  have hne : n.text source ≠ [] := by
    intro hnil
    rw [hnil, List.nil_append] at hat
    have hle := hat.rest.length_le.1
    have hlt := hat.left_lt
    omega
  have hbody : (Sight.ofText s.rest).body = n.text source ++ t.rest :=
    hstart.eq_slice_append hstop hne
  have hsight := Sight.ofText_body s.rest
  rw [hbody] at hsight
  have hspace : Sight.ofText (' ' :: (v ++ k')) = Sight.ofText (v ++ k') := Sight.ofText_space _
  refine readsType_of_twins hs hstrict hbreaks hread hfuel (hat.ofTails rfl rfl ?_ ?_) ?_ ?_
  · rw [hsight]
    exact ⟨rfl, rfl⟩
  · rw [hspace]
    exact ⟨rfl, rfl⟩
  · rw [hspace, Sight.ofText_token (hstarts k')]
  · rw [show Goal.type.rank = 6 from rfl, List.length_cons, List.length_append]
    omega

end ServiceScaffold.Syntax
