import ServiceScaffold.Proofs.Syntax.Sighting
import ServiceScaffold.Syntax.Grammar

/-!
# How deep goals are nested

A goal that is started where another one has been started, without a token read between them, has a
lower rank.  So goals are nested no deeper than the text is long, and `parse` reads every text as if
goals could be nested as deep as they like.

* `Scan.Within` : the state of reading agrees with the text, and less than so much is left of it;
* `Goal.rank` : goals with which a goal may start have a lower rank;
* `Rule.descends` : a rule respects ranks, as can be read off the rule;
* `guardGoal` : reading by a goal, if its goals may be nested deep enough;
* `readGoal_eq_guardGoal` : **they may be, wherever a goal is read**.
-/

namespace ServiceScaffold.Syntax

variable {source : List Char} {s t : Scan} {n : Nat}

/-! ### What is left of a text -/

/-- The state of reading agrees with the text, and less than `n` characters of it are left. -/
structure Scan.Within (source : List Char) (n : Nat) (s : Scan) : Prop extends s.Agrees source where
  length : s.rest.length < n

theorem Scan.Agrees.tail_le (h : s.Agrees source) : s.next.tail.length ≤ s.rest.length := by
  have hsight := congrArg Sight.tail h.sight
  have hbody := (Sight.body_suffix s.rest).length_le
  rw [show s.next.tail = (Sight.ofText s.rest).tail from hsight]
  rw [sight_eq] at hbody ⊢
  exact (Token.ofText_suffix _).length_le.trans hbody

/-- What follows a gap is not longer than the text. -/
theorem Scan.Agrees.gap_le (h : s.Agrees source) : s.next.gap.rest.length ≤ s.rest.length := by
  have hsight := congrArg Sight.body h.sight
  rw [show s.next.gap.rest = (Sight.ofText s.rest).body from hsight]
  exact (Sight.body_suffix s.rest).length_le

namespace Scan.Within

/-- What is left does not depend on the nodes read so far, nor on the mode of reading. -/
theorem ofSame (h : s.Within source n) (hstop : t.stop = s.stop) (hrest : t.rest = s.rest)
    (hnext : t.next = s.next) : t.Within source n :=
  ⟨h.toAgrees.ofSame hstop hrest hnext, hrest ▸ h.length⟩

theorem pushComments (h : s.Within source n) : s.pushComments.Within source n :=
  ⟨h.toAgrees.pushComments, h.length⟩

theorem moveTo {stop : Location} {cs : List Char} (hplaced : Placed source stop cs)
    (hlength : cs.length < n) : (s.moveTo stop cs).Within source n :=
  ⟨.moveTo hplaced, hlength⟩

theorem take (h : s.Within source n) (kind : NodeKind) : (s.take kind).Within source n :=
  .moveTo h.next.placed (h.toAgrees.tail_le.trans_lt h.length)

/-- A token is read. -/
theorem take_lt (h : s.Within source (n + 1)) (htoken : s.next.token ≠ .finish) (kind : NodeKind) :
    (s.take kind).Within source n := by
  have hlength := h.length
  have hlt := h.toAgrees.tail_lt htoken
  exact .moveTo h.next.placed (show s.next.tail.length < n by omega)

theorem accept {p : Token → Bool} {kind : NodeKind} (h : s.Within source (n + 1))
    (hfinish : p .finish = false) (hread : s.accept p kind = .ok t) : t.Within source n := by
  unfold Scan.accept at hread
  split_ifs at hread with htoken
  obtain rfl := Except.ok.inj hread
  refine h.take_lt (fun htoken' => ?_) kind
  rw [htoken', hfinish] at htoken
  cases htoken

theorem accept_le {p : Token → Bool} {kind : NodeKind} (h : s.Within source n)
    (hread : s.accept p kind = .ok t) : t.Within source n := by
  unfold Scan.accept at hread
  split_ifs at hread
  obtain rfl := Except.ok.inj hread
  exact h.take kind

theorem acceptRegex (h : s.Within source (n + 1)) (hread : s.acceptRegex = .ok t) :
    t.Within source n := by
  unfold Scan.acceptRegex at hread
  dsimp only at hread
  split at hread
  · rename_i rest hrest
    split at hread
    · rename_i tail htail
      obtain rfl := Except.ok.inj hread
      have hsuffix := regexTail?_suffix htail
      have hgap := h.toAgrees.gap_le
      have hlength := h.length
      have htailLength := hsuffix.length_le
      rw [hrest, List.length_cons] at hgap
      refine .moveTo (h.next.gap.placed.skipTo ?_) (by omega)
      rw [hrest]
      exact suffix_cons_of_suffix hsuffix
    · cases hread
  · cases hread

theorem passTemplateText (h : s.Within source n) : s.passTemplateText.Within source n :=
  .moveTo (h.placed.skipTo (templateTail_suffix s.rest))
    ((templateTail_suffix s.rest).length_le.trans_lt h.length)

theorem acceptSubstitution (h : s.Within source (n + 1)) (hread : s.acceptSubstitution = .ok t) :
    t.Within source n := by
  unfold Scan.acceptSubstitution at hread
  split at hread
  · rename_i tail hrest
    obtain rfl := Except.ok.inj hread
    have hsuffix : tail <:+ s.rest := hrest ▸ ⟨['$', '\x7b'], rfl⟩
    have hlength := h.length
    rw [hrest, List.length_cons, List.length_cons] at hlength
    exact .moveTo (h.placed.skipTo hsuffix) (by omega)
  · cases hread

theorem acceptSemicolon {inExpression : Bool} (h : s.Within source n)
    (hread : s.acceptSemicolon inExpression = .ok t) : t.Within source n := by
  unfold Scan.acceptSemicolon at hread
  split_ifs at hread
  · obtain rfl := Except.ok.inj hread
    exact h.take _
  · obtain rfl := Except.ok.inj hread
    exact ⟨h.toAgrees.pushNearComments, h.length⟩

/-- The same with more left. -/
theorem mono {m : Nat} (h : s.Within source n) (hle : n ≤ m) : s.Within source m :=
  ⟨h.toAgrees, h.length.trans_le hle⟩

theorem takeAny (h : s.Within source n) : s.takeAny.Within source n := by
  unfold Scan.takeAny
  split
  · split
    · rename_i hregex
      exact ((h.mono n.le_succ).acceptRegex hregex)
    · have hslash := h.take (.token "/")
      have hsuffix : (s.take (.token "/")).rest.dropWhile (!isLineEnd ·) <:+ _ :=
        List.dropWhile_suffix _
      exact .moveTo (hslash.placed.skipTo hsuffix) (hsuffix.length_le.trans_lt hslash.length)
  all_goals exact h.take _

theorem skipWhile {fits : Scan → Bool} {stop : List String} {target : Nat}
    (h : s.Within source n) (fuel : Nat) : (s.skipWhile fits stop target fuel).Within source n := by
  induction fuel generalizing s with
  | zero => exact h
  | succ fuel ih =>
    unfold Scan.skipWhile
    split_ifs
    · exact h
    · exact h
    · exact ih h.takeAny

theorem skip {read : Scan → Reading} {stop : List String} (h : s.Within source n)
    (hread : s.skip read stop = .ok t) : t.Within source n := by
  unfold Scan.skip at hread
  split_ifs at hread
  dsimp only at hread
  obtain rfl := Except.ok.inj hread
  have hfresh : ({ s.pushComments with children := [] } : Scan).Within source n :=
    h.pushComments.ofSame rfl rfl rfl
  exact (hfresh.takeAny.skipWhile _).ofSame rfl rfl rfl

theorem skipBalanced {stop : String} (h : s.Within source n) (fuel depth : Nat) :
    (s.skipBalanced stop fuel depth).Within source n := by
  induction fuel generalizing s depth with
  | zero => exact h
  | succ fuel ih =>
    unfold Scan.skipBalanced
    split_ifs
    · exact h
    all_goals exact ih h.takeAny _

theorem skipTo {stop : String} (h : s.Within source n) (hread : s.skipTo stop = .ok t) :
    t.Within source n := by
  unfold Scan.skipTo at hread
  split_ifs at hread
  obtain rfl := Except.ok.inj hread
  have hfresh : ({ s.pushComments with children := [] } : Scan).Within source n :=
    h.pushComments.ofSame rfl rfl rfl
  exact (hfresh.skipBalanced _ _).ofSame rfl rfl rfl

end Scan.Within

/-- Reading as often as possible depends on what is read within the text only. -/
theorem Scan.Within.repeatedly {read read' : Scan → Reading} (h : s.Within source n)
    (hread : ∀ s : Scan, s.Within source n →
      read s = read' s ∧ ∀ t, read s = .ok t → t.Within source n) (fuel : Nat) :
    s.repeatedly read fuel = s.repeatedly read' fuel ∧ (s.repeatedly read fuel).Within source n := by
  induction fuel generalizing s with
  | zero => exact ⟨rfl, h⟩
  | succ fuel ih =>
    obtain ⟨hsame, hwithin⟩ := hread s h
    unfold Scan.repeatedly
    rw [← hsame]
    split
    · rename_i next hnext
      split_ifs
      · exact ⟨rfl, h⟩
      · exact ih (hwithin next hnext)
    · exact ⟨rfl, h.ofSame rfl rfl rfl⟩

theorem Scan.Within.skipWhile_eq {fits fits' : Scan → Bool} {stop : List String} {target : Nat}
    (h : s.Within source n) (hfits : ∀ s : Scan, s.Within source n → fits s = fits' s)
    (fuel : Nat) : s.skipWhile fits stop target fuel = s.skipWhile fits' stop target fuel := by
  induction fuel generalizing s with
  | zero => rfl
  | succ fuel ih =>
    unfold Scan.skipWhile
    rw [hfits s h, ih h.takeAny]

/-- What is skipped depends on what is read within the text only. -/
theorem Scan.Within.skip_eq {read read' : Scan → Reading} {stop : List String}
    (h : s.Within source n) (hread : ∀ s : Scan, s.Within source n → read s = read' s) :
    s.skip read stop = s.skip read' stop := by
  have hstart : ({ s.pushComments with reach := 0 } : Scan).Within source n :=
    h.pushComments.ofSame rfl rfl rfl
  have hfresh : ({ s.pushComments with children := [] } : Scan).Within source n :=
    h.pushComments.ofSame rfl rfl rfl
  unfold Scan.skip
  dsimp only
  rw [hread _ hstart, hfresh.takeAny.skipWhile_eq fun s hs => ?_]
  have hmild : ({ s with isLenient := true } : Scan).Within source n := hs.ofSame rfl rfl rfl
  rw [hread _ hmild]

/-! ### Ranks -/

namespace Goal

/-- Goals that a goal refers to before it has read a token have a lower rank. -/
def rank : Goal → Nat
  | .parameters | .exportStatement | .classDeclaration => 1
  | .typeMember | .declaration | .primary => 2
  | .objectType | .chain => 3
  | .typePrimary | .operand => 4
  | .typeOperand | .expression => 5
  | .type | .sequence => 6
  | .returnType | .statement => 7
  | .item => 8
  | _ => 0

theorem rank_lt (g : Goal) : g.rank < 40 := by
  cases g <;> decide

/-- The goal is not read without a token. -/
def moves : Goal → Bool
  | .type | .typeOperand | .typePrimary | .returnType | .expression | .sequence | .operand | .chain
  | .primary | .item | .statement => false
  | _ => true

end Goal

namespace Rule

/-- Whether a token has been read behind the rule, if one has been read before it or not; nothing if
the rule refers to a goal of the rank or above before a token has been read. -/
def descends (rank : Nat) : Bool → Rule Goal → Option Bool
  | _, word _ | _, mark _ | _, name _ _ | _, regex | _, substitutionStart => some true
  | moved, literal token _ => some (moved || token != .finish)
  | moved, seq first second => (first.descends rank moved).bind fun a => second.descends rank a
  | moved, choice first second =>
    (first.descends rank moved).bind fun a => (second.descends rank moved).map (a && ·)
  | moved, many rule | moved, ahead rule | moved, notAhead rule | moved, skipped _ rule =>
    (rule.descends rank moved).map fun _ => moved
  | moved, node _ rule | moved, wrap _ rule | moved, part _ rule | moved, breaking _ rule
  | moved, lenient rule | moved, mended rule => rule.descends rank moved
  | moved, goal g => if moved || g.rank < rank then some (moved || g.moves) else none
  | moved, _ => some moved

/-- A token that has been read stays read. -/
theorem descends_true {rank : Nat} {rule : Rule Goal} {moved : Bool}
    (h : rule.descends rank true = some moved) : moved = true := by
  induction rule generalizing moved with
  | seq first second ihfirst ihsecond =>
    obtain ⟨a, ha, hb⟩ := Option.bind_eq_some_iff.1 h
    obtain rfl := ihfirst ha
    exact ihsecond hb
  | choice first second ihfirst ihsecond =>
    obtain ⟨a, ha, hb⟩ := Option.bind_eq_some_iff.1 h
    obtain ⟨b, hb', rfl⟩ := Option.map_eq_some_iff.1 hb
    rw [ihfirst ha, ihsecond hb', Bool.and_self]
  | many rule | ahead rule | notAhead rule | skipped stop rule =>
    obtain ⟨-, -, rfl⟩ := Option.map_eq_some_iff.1 h
    rfl
  | node kind rule ih | wrap kind rule ih | part field rule ih | breaking breaks rule ih
  | lenient rule ih | mended rule ih => exact ih h
  | _ =>
    simp only [descends, Bool.true_or, if_true, Option.some.injEq] at h
    exact h.symm

end Rule

namespace Goal

/-- The goal refers to goals of lower ranks only, before it has read a token. -/
def isRanked (g : Goal) : Bool := ((grammar g).descends g.rank false).any fun moved => !g.moves || moved

theorem isRanked_all (g : Goal) : g.isRanked := by
  cases g <;> decide +kernel

end Goal

/-! ### Reading -/

/-- How much may be left of a text of which `n` characters were left, if a token has been read or
not. -/
def room (moved : Bool) (n : Nat) : Nat := if moved then n else n + 1

theorem room_mono {a b : Bool} (h : a = true → b = true) (n : Nat) : room b n ≤ room a n := by
  cases a <;> cases b <;> simp_all [room]

theorem room_le (moved : Bool) (n : Nat) : room moved n ≤ n + 1 := by
  cases moved <;> simp [room]

theorem Reading.exists_of_map_eq {r : Reading} {f : Scan → Scan} {t : Scan}
    (h : r.map f = .ok t) : ∃ mid, r = .ok mid ∧ f mid = t := by
  cases r with
  | error reach => cases h
  | ok mid => exact ⟨mid, rfl, Except.ok.inj h⟩

theorem Reading.within_map {r : Reading} {f : Scan → Scan} (h : ∀ t, r = .ok t → t.Within source n)
    (hf : ∀ t : Scan, t.Within source n → (f t).Within source n) (t : Scan)
    (ht : r.map f = .ok t) : t.Within source n := by
  obtain ⟨mid, hmid, rfl⟩ := Reading.exists_of_map_eq ht
  exact hf mid (h mid hmid)

namespace Rule

variable {self self' : Goal → Scan → Reading} {rank : Nat}

/-- A node is read without making up for absent tokens, or else it holds an error. -/
theorem of_read_mended {rule : Rule Goal} (h : (mended rule).read self s = .ok t) :
    s.isLenient = false ∧ rule.read self s = .ok t ∨ s.isLenient = true ∧
      ((∃ next, rule.read self { s with isLenient := false } = .ok next ∧
          t = { next with isLenient := true }) ∨
        rule.read self s = .ok t ∧ t.isMended = true) := by
  simp only [read] at h
  split_ifs at h with hmild
  · refine .inr ⟨hmild, ?_⟩
    split at h
    · rename_i next hnext
      exact .inl ⟨next, hnext, (Except.ok.inj h).symm⟩
    · rcases hnext : rule.read self s with reach | next
      · rw [hnext] at h
        cases h
      · rw [hnext] at h
        simp only [Except.bind] at h
        split_ifs at h with hmended
        obtain rfl := Except.ok.inj h
        exact .inr ⟨rfl, hmended⟩
  · exact .inl ⟨Bool.eq_false_iff.2 hmild, h⟩

/-- **A rule that respects ranks is read alike** if its goals are, where they may be read. -/
theorem read_eq (hself : ∀ g moved (s : Scan), (moved = true ∨ g.rank < rank) →
      s.Within source (room moved n) → self g s = self' g s ∧
        ∀ t, self g s = .ok t → t.Within source (room (moved || g.moves) n))
    (rule : Rule Goal) {moved moved' : Bool} (hrule : rule.descends rank moved = some moved')
    (h : s.Within source (room moved n)) : rule.read self s = rule.read self' s ∧
      ∀ t, rule.read self s = .ok t → t.Within source (room moved' n) := by
  have hroom : ∀ {s : Scan} {moved : Bool}, s.Within source (room moved n) →
      s.Within source (n + 1) := fun hs => hs.mono (room_le _ n)
  induction rule generalizing s moved moved' with
  | empty =>
    obtain rfl := Option.some.inj hrule
    refine ⟨rfl, fun t ht => ?_⟩
    obtain rfl := Except.ok.inj ht
    exact h
  | word letters | mark characters | name kind except =>
    obtain rfl := Option.some.inj hrule
    exact ⟨rfl, fun t ht => (hroom h).accept rfl ht⟩
  | literal token kind =>
    obtain rfl := Option.some.inj hrule
    refine ⟨rfl, fun t ht => ?_⟩
    rcases eq_or_ne token .finish with rfl | htoken
    · rw [bne_self_eq_false, Bool.or_false]
      exact h.accept_le ht
    · rw [bne_iff_ne.2 htoken, Bool.or_true]
      have hfinish : (Token.finish == token) = false := beq_eq_false_iff_ne.2 htoken.symm
      exact Scan.Within.accept (p := (· == token)) (hroom h) hfinish ht
  | regex =>
    obtain rfl := Option.some.inj hrule
    exact ⟨rfl, fun t ht => (hroom h).acceptRegex ht⟩
  | templateText =>
    obtain rfl := Option.some.inj hrule
    refine ⟨rfl, fun t ht => ?_⟩
    obtain rfl := Except.ok.inj ht
    exact h.passTemplateText
  | substitutionStart =>
    obtain rfl := Option.some.inj hrule
    exact ⟨rfl, fun t ht => (hroom h).acceptSubstitution ht⟩
  | seq first second ihfirst ihsecond =>
    obtain ⟨a, ha, hb⟩ := Option.bind_eq_some_iff.1 hrule
    obtain ⟨hsame, hwithin⟩ := ihfirst ha h
    simp only [read, ← hsame]
    rcases hmid : first.read self s with reach | mid
    · exact ⟨rfl, nofun⟩
    · exact ihsecond hb (hwithin mid hmid)
  | choice first second ihfirst ihsecond =>
    obtain ⟨a, ha, hb⟩ := Option.bind_eq_some_iff.1 hrule
    obtain ⟨b, hb', rfl⟩ := Option.map_eq_some_iff.1 hb
    obtain ⟨hsame, hwithin⟩ := ihfirst ha h
    simp only [read, ← hsame]
    rcases hmid : first.read self s with reach | mid
    · obtain ⟨hsame', hwithin'⟩ :=
        ihsecond hb' (h.ofSame (t := { s with reach := reach }) rfl rfl rfl)
      exact ⟨hsame', fun t ht => (hwithin' t ht).mono (room_mono (by simp) n)⟩
    · refine ⟨rfl, fun t ht => ?_⟩
      obtain rfl := Except.ok.inj ht
      exact (hwithin mid hmid).mono (room_mono (by simp +contextual) n)
  | many rule ih =>
    obtain ⟨a, ha, rfl⟩ := Option.map_eq_some_iff.1 hrule
    have hread : ∀ u : Scan, u.Within source (room moved n) →
        rule.read self u = rule.read self' u ∧
          ∀ t, rule.read self u = .ok t → t.Within source (room moved n) := fun u hu =>
      ⟨(ih ha hu).1, fun t ht => ((ih ha hu).2 t ht).mono
        (room_mono (fun hmoved => descends_true (hmoved ▸ ha)) n)⟩
    obtain ⟨hsame, hwithin⟩ := h.repeatedly hread (s.rest.length + 1)
    refine ⟨by simp only [read, hsame], fun t ht => ?_⟩
    obtain rfl := Except.ok.inj ht
    exact hwithin
  | ahead rule ih | notAhead rule ih =>
    obtain ⟨a, ha, rfl⟩ := Option.map_eq_some_iff.1 hrule
    obtain ⟨hsame, -⟩ := ih ha h
    simp only [read, ← hsame]
    refine ⟨trivial, fun t ht => ?_⟩
    split at ht <;> cases ht
    exact h
  | node kind rule ih =>
    obtain ⟨hsame, hwithin⟩ := ih hrule
      (h.pushComments.ofSame (t := { s.pushComments with children := [] }) rfl rfl rfl)
    simp only [read, ← hsame]
    exact ⟨trivial, Reading.within_map hwithin fun t ht => ht.ofSame rfl rfl rfl⟩
  | wrap kind rule ih =>
    simp only [read]
    split
    · rename_i last earlier hchildren
      obtain ⟨hsame, hwithin⟩ := ih hrule (h.ofSame (t := { s with children := [last] }) rfl rfl rfl)
      rw [← hsame]
      exact ⟨rfl, Reading.within_map hwithin fun t ht => ht.ofSame rfl rfl rfl⟩
    · exact ⟨rfl, nofun⟩
  | part field rule ih =>
    obtain ⟨hsame, hwithin⟩ := ih hrule h
    simp only [read, ← hsame]
    refine ⟨trivial, Reading.within_map hwithin fun t ht => ?_⟩
    split
    · exact ht.ofSame rfl rfl rfl
    · exact ht
  | breaking breaks rule ih =>
    obtain ⟨hsame, hwithin⟩ := ih hrule (h.ofSame (t := { s with breaks := breaks }) rfl rfl rfl)
    simp only [read, ← hsame]
    exact ⟨trivial, Reading.within_map hwithin fun t ht => ht.ofSame rfl rfl rfl⟩
  | lenient rule ih =>
    obtain ⟨hsame, hwithin⟩ := ih hrule (h.ofSame (t := { s with isLenient := true }) rfl rfl rfl)
    simp only [read, ← hsame]
    exact ⟨trivial, Reading.within_map hwithin fun t ht => ht.ofSame rfl rfl rfl⟩
  | mended rule ih =>
    obtain ⟨hsame, hwithin⟩ := ih hrule h
    obtain ⟨hsame', hwithin'⟩ := ih hrule (h.ofSame (t := { s with isLenient := false }) rfl rfl rfl)
    refine ⟨by simp only [read, ← hsame, ← hsame'], fun t ht => ?_⟩
    obtain ⟨-, ht⟩ | ⟨-, ⟨next, hnext, rfl⟩ | ⟨ht, -⟩⟩ := of_read_mended ht
    · exact hwithin t ht
    · exact (hwithin' next hnext).ofSame rfl rfl rfl
    · exact hwithin t ht
  | goesOn inExpression | sameLine | inLenient | finish =>
    obtain rfl := Option.some.inj hrule
    refine ⟨rfl, fun t ht => ?_⟩
    simp only [read] at ht
    split_ifs at ht
    obtain rfl := Except.ok.inj ht
    exact h
  | semicolon inExpression =>
    obtain rfl := Option.some.inj hrule
    exact ⟨rfl, fun t ht => h.acceptSemicolon ht⟩
  | missing kind =>
    obtain rfl := Option.some.inj hrule
    refine ⟨rfl, fun t ht => ?_⟩
    simp only [read] at ht
    split_ifs at ht
    obtain rfl := Except.ok.inj ht
    exact h.ofSame rfl rfl rfl
  | skipped stop rule ih =>
    obtain ⟨a, ha, rfl⟩ := Option.map_eq_some_iff.1 hrule
    exact ⟨h.skip_eq fun u hu => (ih ha hu).1, fun t ht => h.skip ht⟩
  | skippedTo stop =>
    obtain rfl := Option.some.inj hrule
    refine ⟨rfl, fun t ht => ?_⟩
    simp only [read] at ht
    split_ifs at ht
    exact h.skipTo ht
  | goal g =>
    simp only [descends] at hrule
    split_ifs at hrule with hgoal
    obtain rfl := Option.some.inj hrule
    exact hself g moved s (by simpa using hgoal) h

end Rule

/-- Reading by a goal, if its goals may be nested as deep as the text and the rank of the goal ask
for. -/
def guardGoal : Nat → Goal → Scan → Reading
  | 0, _, s => .error s.reach
  | fuel + 1, g, s =>
    if 40 * s.rest.length + g.rank ≤ fuel then (grammar g).read (guardGoal fuel) s
    else .error s.reach

/-- **Goals may be nested deep enough wherever a goal is read**, and if it moves, a token has been
read behind it. -/
theorem readGoal_eq_guardGoal {fuel : Nat} {g : Goal} (h : s.Agrees source)
    (hfuel : 40 * s.rest.length + g.rank < fuel) :
    readGoal grammar fuel g s = guardGoal fuel g s ∧ ∀ t, readGoal grammar fuel g s = .ok t →
      t.Within source (room g.moves s.rest.length) := by
  induction fuel generalizing g s with
  | zero => omega
  | succ fuel ih =>
    have hranked := g.isRanked_all
    rw [Goal.isRanked, Option.any_eq_true] at hranked
    obtain ⟨moved, hmoved, hmoves⟩ := hranked
    have hgoals : ∀ g' moved' (u : Scan), (moved' = true ∨ g'.rank < g.rank) →
        u.Within source (room moved' s.rest.length) →
        readGoal grammar fuel g' u = guardGoal fuel g' u ∧ ∀ t, readGoal grammar fuel g' u = .ok t →
          t.Within source (room (moved' || g'.moves) s.rest.length) := by
      intro g' moved' u hgoal hu
      have hlength := hu.length
      have hrank := g'.rank_lt
      -- less text is left, or the rank is lower
      have hless : 40 * u.rest.length + g'.rank < fuel := by
        cases moved' with
        | false =>
          simp only [room, Bool.false_eq_true, if_false, false_or] at hlength hgoal
          omega
        | true =>
          simp only [room, if_true] at hlength
          omega
      obtain ⟨hsame, hwithin⟩ := ih hu.toAgrees hless
      refine ⟨hsame, fun t ht => (hwithin t ht).mono ?_⟩
      cases moved' <;> cases hg : g'.moves <;> simp [room] at hlength ⊢ <;> omega
    obtain ⟨hsame, hwithin⟩ :=
      Rule.read_eq hgoals (grammar g) hmoved ⟨h, Nat.lt_succ_self s.rest.length⟩
    refine ⟨?_, fun t ht => (hwithin t ht).mono (room_mono (fun hg => ?_) _)⟩
    · rw [guardGoal, if_pos (Nat.le_of_lt_succ hfuel), readGoal, hsame]
    · simpa [hg] using hmoves

/-! ### Texts -/

theorem interpreterLine?_suffix {rest : List Char} (h : interpreterLine? source = some rest) :
    rest <:+ source := by
  unfold interpreterLine? at h
  split at h
  · obtain rfl := Option.some.inj h
    exact suffix_cons_of_suffix (suffix_cons_of_suffix (List.dropWhile_suffix _))
  · cases h

/-- A text is read from its start, or from the end of the line that names its interpreter. -/
theorem within_startOf (source : List Char) : (startOf source).Within source (source.length + 1) := by
  unfold startOf
  split
  · rename_i rest hline
    have hsuffix := interpreterLine?_suffix hline
    have hplaced := (placed_start source).skipTo hsuffix
    have htext : (Scan.ofText (Location.skipTo {} source rest) rest).Within source
        (source.length + 1) :=
      .moveTo (s := Scan.ofText {} rest) hplaced (Nat.lt_succ_of_le hsuffix.length_le)
    exact htext.ofSame rfl rfl rfl
  · exact .moveTo (s := Scan.ofText {} source) (placed_start source) (Nat.lt_succ_self _)

/-- Every text is read as if goals could be nested as deep as they like. -/
theorem parse_eq (source : List Char) :
    parse source =
      let read := Rule.read (guardGoal (40 * (source.length + 10))) Grammar.rootItem
      let s := ((startOf source).repeatedly read (source.length + 1)).pushComments
      .mk .program none {} s.stop false s.children.reverse := by
  have hgoals : ∀ (g : Goal) (moved : Bool) (s : Scan), (moved = true ∨ g.rank < 9) →
      s.Within source (room moved source.length) →
      readGoal grammar (40 * (source.length + 10)) g s =
        guardGoal (40 * (source.length + 10)) g s ∧
      ∀ t, readGoal grammar (40 * (source.length + 10)) g s = .ok t →
        t.Within source (room (moved || g.moves) source.length) := by
    intro g moved s _ hs
    have hlength := hs.length
    have hroom := room_le moved source.length
    have hrank := g.rank_lt
    have hfuel : 40 * s.rest.length + g.rank < 40 * (source.length + 10) := by omega
    obtain ⟨hsame, hwithin⟩ := readGoal_eq_guardGoal hs.toAgrees hfuel
    refine ⟨hsame, fun t ht => (hwithin t ht).mono ?_⟩
    cases moved <;> cases hg : g.moves <;> simp [room] at hlength ⊢ <;> omega
  obtain ⟨moved, hmoved⟩ : ∃ moved, Grammar.rootItem.descends 9 false = some moved :=
    Option.isSome_iff_exists.1 (by decide +kernel)
  obtain ⟨hsame, -⟩ := (within_startOf source).repeatedly (fun s hs => by
    obtain ⟨hsame, hwithin⟩ := Rule.read_eq hgoals Grammar.rootItem hmoved hs
    exact ⟨hsame, fun t ht => (hwithin t ht).mono (room_le _ _)⟩) (source.length + 1)
  rw [parse, hsame]

end ServiceScaffold.Syntax
