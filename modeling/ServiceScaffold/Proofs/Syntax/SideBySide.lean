import ServiceScaffold.Proofs.Syntax.Survey

/-!
# Two texts read side by side

A type is read in two texts that are twins.  What a verdict says of a rule is said here of the two
states of reading: where they stand, and what is the same in both.

* `Twins.code`, `Twins.edge` : what comes next in both texts;
* `Scan.IsReady`, `Alike` : states in which nothing has been made up for, at the same place;
* `Frame`, `Fits` : what is known of both states since a goal was started;
* `Verdict.Holds` : a verdict holds of what has been read in both texts.
-/

namespace ServiceScaffold.Syntax

open Rule

variable {source source' k k' : List Char} {p : Spot} {s s' : Scan}

/-! ### Twins -/

/-- Both texts are at the end of what they have in common. -/
structure AtStop (k k' : List Char) (p : Spot) (u u' : List Char) : Prop where
  left : u = k
  right : u' = k'
  out : p.isOut
  stops : Stops p (Sight.ofText k) (Sight.ofText k')

/-- Both texts have the same token next. -/
structure AtToken (k k' : List Char) (p : Spot) (u u' : List Char) (t : Token) (p' : Spot) :
    Prop where
  left : (Sight.ofText u).token = t
  right : (Sight.ofText u').token = t
  allowed : p.forbids t = false
  calm : p.behind = .linking ∨ p.behind = .closed → Calm p t (Sight.ofText u) (Sight.ofText u')
  next : p.read t = some p'
  rest : Twins k k' p' (Sight.ofText u).tail (Sight.ofText u').tail

namespace Twins

variable {u u' : List Char}

theorem code (h : Twins k k' p u u') (hmode : p.mode = .code) :
    AtStop k k' p u u' ∨ ∃ t p', AtToken k k' p u u' t p' := by
  cases h with
  | stop out _ stops => exact .inl ⟨rfl, rfl, out, stops⟩
  | token _ left right allowed calm next rest =>
    exact .inr ⟨_, _, left, right, allowed, calm, next, rest⟩
  | text mode => rw [hmode] at mode; cases mode
  | hole mode => rw [hmode] at mode; cases mode
  | quote mode => rw [hmode] at mode; cases mode

theorem text_tail (h : Twins k k' p u u') (hmode : p.mode = .text) :
    Twins k k' { p with mode := .edge } (templateTail u) (templateTail u') := by
  cases h with
  | stop _ mode => rw [hmode] at mode; cases mode
  | token mode => rw [hmode] at mode; cases mode
  | text _ rest => exact rest
  | hole mode => rw [hmode] at mode; cases mode
  | quote mode => rw [hmode] at mode; cases mode

/-- Either a substitution starts in both texts, or both are at the closing quote. -/
theorem edge (h : Twins k k' p u u') (hmode : p.mode = .edge) :
    (∃ v v', u = '$' :: '\x7b' :: v ∧ u' = '$' :: '\x7b' :: v' ∧
      Twins k k' ⟨⟨.hole :: p.stack, p.angles, .code⟩, .opening⟩ v v') ∨
    ∃ v v', u = '`' :: v ∧ u' = '`' :: v' ∧ Twins k k' ⟨⟨p.stack, p.angles, .code⟩, .closed⟩ v v' := by
  cases h with
  | stop _ mode => rw [hmode] at mode; cases mode
  | token mode => rw [hmode] at mode; cases mode
  | text mode => rw [hmode] at mode; cases mode
  | hole _ rest => exact .inl ⟨_, _, rfl, rfl, rest⟩
  | quote _ rest => exact .inr ⟨_, _, rfl, rfl, rest⟩

end Twins

theorem Spot.ne_finish {t : Token} {p' : Spot} (h : p.read t = some p') : t ≠ .finish := by
  rintro rfl
  cases h

namespace AtToken

variable {u u' : List Char} {t : Token} {p' : Spot}

theorem left_lt (h : AtToken k k' p u u' t p') : (Sight.ofText u).tail.length < u.length :=
  Sight.tail_length_lt (h.left ▸ Spot.ne_finish h.next)

theorem right_lt (h : AtToken k k' p u u' t p') : (Sight.ofText u').tail.length < u'.length :=
  Sight.tail_length_lt (h.right ▸ Spot.ne_finish h.next)

end AtToken

/-- Where a type starts, only its tokens matter. -/
theorem AtToken.ofTails {t : Token} {p' : Spot} {u u' v v' : List Char}
    (h : AtToken k k' p u v t p') (hopening : p.behind = .opening)
    (hmode : p.mode = .code)
    (hu : (Sight.ofText u').token = (Sight.ofText u).token ∧
      (Sight.ofText u').tail = (Sight.ofText u).tail)
    (hv : (Sight.ofText v').token = (Sight.ofText v).token ∧
      (Sight.ofText v').tail = (Sight.ofText v).tail) : Twins k k' p u' v' := by
  refine .token hmode (hu.1.trans h.left) (hv.1.trans h.right) h.allowed (fun hbehind => ?_) h.next ?_
  · rw [hopening] at hbehind
    simp at hbehind
  · rw [hu.2, hv.2]
    exact h.rest

/-- What is left of each text holds what follows what they have in common. -/
theorem Twins.length_le {u u' : List Char} (h : Twins k k' p u u') :
    k.length ≤ u.length ∧ k'.length ≤ u'.length := by
  induction h with
  | stop => exact ⟨le_rfl, le_rfl⟩
  | token mode left right allowed calm next rest ih =>
    have hat : AtToken k k' _ _ _ _ _ := ⟨left, right, allowed, calm, next, rest⟩
    exact ⟨ih.1.trans hat.left_lt.le, ih.2.trans hat.right_lt.le⟩
  | text _ _ ih =>
    exact ⟨ih.1.trans (templateTail_suffix _).length_le, ih.2.trans (templateTail_suffix _).length_le⟩
  | hole _ _ ih => exact ⟨ih.1.trans (by simp; omega), ih.2.trans (by simp; omega)⟩
  | quote _ _ ih => exact ⟨ih.1.trans (by simp), ih.2.trans (by simp)⟩

/-- Where one text is at the end, the other one is. -/
theorem Twins.right_eq {u' : List Char} (h : Twins k k' p k u') (hmode : p.mode = .code) :
    u' = k' := by
  obtain hstop | ⟨t, p', hat⟩ := h.code hmode
  · exact hstop.right
  · have hle := hat.rest.length_le.1
    have hlt := hat.left_lt
    omega

/-! ### States of reading -/

/-- Reading goes on without making up for anything, and has found no error so far. -/
structure Scan.IsReady (source : List Char) (s : Scan) : Prop where
  sees : s.Sees source s.rest []
  strict : s.isLenient = false
  quiet : ∀ n ∈ s.children, n.IsQuiet

namespace Scan.IsReady

theorem ofSame {t : Scan} (h : s.IsReady source) (hstop : t.stop = s.stop) (hrest : t.rest = s.rest)
    (hnext : t.next = s.next) (hstrict : t.isLenient = s.isLenient)
    (hquiet : ∀ n ∈ t.children, n.IsQuiet) : t.IsReady source :=
  ⟨hrest ▸ h.sees.ofSame hstop hrest hnext, hstrict.trans h.strict, hquiet⟩

theorem sight (h : s.IsReady source) : s.next.sight = Sight.ofText s.rest := h.sees.sight

theorem token (h : s.IsReady source) : s.next.token = (Sight.ofText s.rest).token :=
  congrArg Sight.token h.sight

theorem tail (h : s.IsReady source) : s.next.tail = (Sight.ofText s.rest).tail :=
  congrArg Sight.tail h.sight

theorem comments (h : s.IsReady source) : ∀ n ∈ s.next.gap.far ++ s.next.gap.near, n.IsQuiet :=
  fun n hn => (h.sees.comments n hn).isQuiet

theorem pushComments (h : s.IsReady source) : s.pushComments.IsReady source where
  sees := h.sees.pushComments
  strict := h.strict
  quiet := fun n hn => (List.mem_append.1 hn).elim (h.comments n) (h.quiet n)

theorem pushNearComments (h : s.IsReady source) : s.pushNearComments.IsReady source where
  sees := h.sees.pushNearComments
  strict := h.strict
  quiet := fun n hn => (List.mem_append.1 hn).elim
    (fun hnear => h.comments n (List.mem_append_right _ hnear)) (h.quiet n)

theorem push {n : Node} (h : s.IsReady source) (hn : n.IsQuiet) : (s.push n).IsReady source :=
  h.ofSame rfl rfl rfl rfl fun m hm => by
    obtain rfl | hold := List.mem_cons.1 hm
    · exact hn
    · exact h.quiet m hold

theorem moveTo {stop : Location} {cs : List Char} (h : s.IsReady source)
    (hplaced : Placed source stop cs) : (s.moveTo stop cs).IsReady source :=
  ⟨.moveTo hplaced .nil, h.strict, h.quiet⟩

theorem take {kind : NodeKind} (h : s.IsReady source) (hkind : kind.isQuiet = true) :
    (s.take kind).IsReady source :=
  (h.pushComments.push (isQuiet_mk hkind (by simp))).moveTo h.sees.next.placed

theorem close {kind : NodeKind} {start : Location} {t : Scan} (h : s.IsReady source)
    (ht : t.IsReady source) (hkind : kind.isQuiet = true) : (s.close t kind start).IsReady source :=
  ht.ofSame rfl rfl rfl rfl fun n hn => by
    obtain rfl | hold := List.mem_cons.1 hn
    · exact isQuiet_mk hkind fun m hm => ht.quiet m (List.mem_reverse.1 hm)
    · exact h.quiet n hold

theorem passTemplateText (h : s.IsReady source) : s.passTemplateText.IsReady source :=
  h.moveTo (h.sees.placed.skipTo (templateTail_suffix s.rest))

end Scan.IsReady

/-- Two texts, and what stands in each of them behind what they have in common. -/
structure Pair where
  source : List Char
  source' : List Char
  k : List Char
  k' : List Char

/-- Both states of reading stand at the same place in texts that are twins. -/
structure Alike (T : Pair) (p : Spot) (s s' : Scan) : Prop where
  left : s.IsReady T.source
  right : s'.IsReady T.source'
  twins : Twins T.k T.k' p s.rest s'.rest

/-! ### What a verdict says -/

/-- Where and how a goal has been started. -/
structure Frame where
  level : Level
  base : Spot
  /-- The lengths of both texts. -/
  room : Nat
  room' : Nat
  /-- Whether lines end statements in either text. -/
  breaks : Bool
  breaks' : Bool

/-- The goal may be read there. -/
structure Frame.IsSound (F : Frame) : Prop where
  inner : F.level ≠ .outer → F.base.stack ≠ []
  deep : F.level = .deep → F.base.isDeep
  breaks : F.base.isOut = false → F.breaks = F.breaks'
  lines : F.base.isOut = true → F.breaks = true

/-- The brackets at a place are those that are meant, and those around the goal. -/
structure Nest.Over (F : Frame) (n b : Nest) : Prop where
  stack : b.stack = n.stack ++ F.base.stack
  angles : b.angles = F.base.angles + if F.base.stack = [] then n.angles else 0
  mode : b.mode = n.mode

/-- The place is one of those that are meant. -/
structure Stand.Over (F : Frame) (st : Stand) (p : Spot) : Prop
    extends Nest.Over F st.toNest p.toNest where
  before : st.before.has p.behind

/-- What is known of both states of reading. -/
structure Fits (T : Pair) (F : Frame) (asIs : Bool) (st : Stand) (p : Spot) (s s' : Scan) :
    Prop where
  alike : Alike T p s s'
  stands : st.Over F p
  made : st.made → s.children ≠ [] ∧ s'.children ≠ []
  room : s.rest.length ≤ F.room ∧ s'.rest.length ≤ F.room'
  moved : st.moved → s.rest.length < F.room ∧ s'.rest.length < F.room'
  kept : asIs = true → s.breaks = F.breaks ∧ s'.breaks = F.breaks'
  even : asIs = false → s.breaks = s'.breaks

/-- Reading fails. -/
def Reading.Failed (r : Reading) : Prop := ∃ reach, r = .error reach

theorem failed_error (reach : Nat) : Reading.Failed (.error reach) := ⟨reach, rfl⟩

theorem Reading.failed_or (r : Reading) : r.Failed ∨ ∃ t, r = .ok t := by
  cases r with
  | error reach => exact .inl ⟨reach, rfl⟩
  | ok t => exact .inr ⟨t, rfl⟩

theorem not_failed_ok {t : Scan} : ¬Reading.Failed (.ok t) := by
  rintro ⟨reach, h⟩
  cases h

theorem Reading.Failed.map {r : Reading} (h : r.Failed) (f : Scan → Scan) :
    Reading.Failed (r.map f) := by
  obtain ⟨reach, rfl⟩ := h
  exact ⟨reach, rfl⟩

theorem Reading.Failed.bind {r : Reading} (h : r.Failed) (f : Scan → Reading) :
    Reading.Failed (r.bind f) := by
  obtain ⟨reach, rfl⟩ := h
  exact ⟨reach, rfl⟩

/-- What has been told of a rule holds of reading both texts by it. -/
def Verdict.Holds (T : Pair) (F : Frame) (asIs : Bool) (r r' : Reading) : Verdict → Prop
  | unsure => True
  | never => r.Failed ∧ r'.Failed
  | alike => r.Failed ↔ r'.Failed
  | reads st => r.Failed ∧ r'.Failed ∨
    ∃ p t t', r = .ok t ∧ r' = .ok t' ∧ Fits T F asIs st p t t'

variable {T : Pair} {F : Frame} {asIs : Bool} {st : Stand} {r r' : Reading} {v : Verdict}

/-- Where reading fails in both texts, everything holds that has been told. -/
theorem Verdict.holds_of_failed (hr : r.Failed) (hr' : r'.Failed) (v : Verdict) :
    v.Holds T F asIs r r' := by
  cases v with
  | unsure => trivial
  | never => exact ⟨hr, hr'⟩
  | alike => exact iff_of_true hr hr'
  | reads st => exact .inl ⟨hr, hr'⟩

theorem Verdict.Holds.failed_iff (h : v.Holds T F asIs r r') (hv : v ≠ .unsure) :
    r.Failed ↔ r'.Failed := by
  cases v with
  | unsure => exact absurd rfl hv
  | never => exact iff_of_true h.1 h.2
  | alike => exact h
  | reads st =>
    obtain ⟨hr, hr'⟩ | ⟨p, t, t', rfl, rfl, -⟩ := h
    · exact iff_of_true hr hr'
    · exact iff_of_false not_failed_ok not_failed_ok

/-! ### Places that are meant -/

theorem Spot.isOut_iff : p.isOut = true ↔ p.stack = [] ∧ p.angles = 0 := by
  simp [Spot.isOut]

theorem Spot.isOut_eq_false_iff : p.isOut = false ↔ p.stack ≠ [] ∨ p.angles ≠ 0 := by
  rw [← Bool.not_eq_true, Spot.isOut_iff, not_and_or]

theorem Spot.stack_ne_nil_of_isDeep (h : p.isDeep = true) : p.stack ≠ [] := by
  intro hstack
  simp [Spot.isDeep, hstack] at h

theorem Frame.IsSound.isOut_eq_false (hF : F.IsSound) (hlevel : F.level ≠ .outer) :
    F.base.isOut = false :=
  Spot.isOut_eq_false_iff.2 (.inl (hF.inner hlevel))

namespace Stand.Over

variable (hF : F.IsSound) (h : st.Over F p)
include h

/-- Brackets that are open where the goal is started stay open. -/
theorem isOut_of_isOut (hout : p.isOut = true) : F.base.isOut = true := by
  rw [Spot.isOut_iff] at hout ⊢
  obtain ⟨hstack, hangles⟩ := hout
  rw [h.stack] at hstack
  rw [h.angles] at hangles
  exact ⟨(List.append_eq_nil_iff.1 hstack).2, by omega⟩

/-- A type may end with the token before the place. -/
theorem closed (hclosed : p.behind = .closed) : st.before.closed = true := by
  have hbefore := h.before
  rwa [hclosed] at hbefore

theorem isOut_base (hout : st.isOut F.level = true) : p.isOut = F.base.isOut := by
  simp only [Stand.isOut, Bool.and_eq_true, List.isEmpty_iff, beq_iff_eq] at hout
  obtain ⟨⟨-, hstack⟩, hangles⟩ := hout
  have hsame : p.stack = F.base.stack ∧ p.angles = F.base.angles := by
    rw [h.stack, h.angles, hstack, hangles]
    simp
  rw [Spot.isOut, Spot.isOut, hsame.1, hsame.2]

include hF

/-- What is outside of brackets is told to be so. -/
theorem isOut (hout : p.isOut = true) : st.isOut F.level = true := by
  have hbase := Spot.isOut_iff.1 (h.isOut_of_isOut hout)
  rw [Spot.isOut_iff, h.stack, h.angles, if_pos hbase.1] at hout
  have hlevel : F.level = .outer := by
    by_contra hlevel
    exact hF.inner hlevel hbase.1
  have hangles : st.angles = 0 := by omega
  simp [Stand.isOut, hlevel, (List.append_eq_nil_iff.1 hout.1).1, hangles]

/-- In brackets that the rule has opened nothing is outside of brackets. -/
theorem isOut_eq_false (hout : st.isOut F.level = false) : p.isOut = false := by
  rw [Bool.eq_false_iff]
  intro hp
  rw [h.isOut hF hp] at hout
  cases hout

/-- What is in no brackets but angle ones is told to be so. -/
theorem isBare (hbare : p.isBare = true) : st.isBare F.level = true := by
  rw [Spot.isBare, List.isEmpty_iff, h.stack, List.append_eq_nil_iff] at hbare
  rw [Stand.isBare, hbare.1, List.isEmpty_nil, Bool.and_true, beq_iff_eq]
  by_contra hlevel
  exact hF.inner hlevel hbare.2

theorem isBare_eq_false (hbare : st.isBare F.level = false) : p.isBare = false := by
  rw [Bool.eq_false_iff]
  intro hp
  rw [h.isBare hF hp] at hbare
  cases hbare

theorem isDeep (hdeep : st.isDeep F.level = true) : p.isDeep = true := by
  simp only [Stand.isDeep, Bool.or_eq_true, beq_iff_eq, List.contains_iff_mem] at hdeep
  rw [Spot.isDeep, List.contains_iff_mem, h.stack, List.mem_append]
  obtain hlevel | hstack := hdeep
  · have hbase := hF.deep hlevel
    rw [Spot.isDeep, List.contains_iff_mem] at hbase
    exact .inr hbase
  · exact .inl hstack

end Stand.Over

/-- A place at which a statement may end. -/
theorem Stand.Over.behind (h : st.Over F p) (hend : st.mayEnd = true) :
    p.mode = .code ∧ (p.behind = .linking ∨ p.behind = .closed) := by
  simp only [Stand.mayEnd, Bool.and_eq_true, beq_iff_eq, Bool.not_eq_true'] at hend
  obtain ⟨⟨hmode, hopening⟩, harrow⟩ := hend
  refine ⟨h.mode.trans hmode, ?_⟩
  have hbefore := h.before
  rcases hp : p.behind <;> rw [hp] at hbefore
  · exact absurd hbefore (by simp [Before.has, hopening])
  · exact absurd hbefore (by simp [Before.has, harrow])
  · exact .inl rfl
  · exact .inr rfl

theorem Fits.breaks_eq (hF : F.IsSound) (h : Fits T F asIs st p s s')
    (heven : st.isEven F.level asIs = true) (hout : p.isOut = false) : s.breaks = s'.breaks := by
  cases hasIs : asIs with
  | false => exact h.even hasIs
  | true =>
    have hbase : F.base.isOut = false := by
      simp only [Stand.isEven, hasIs, Bool.not_true, Bool.false_or, Bool.or_eq_true,
        bne_iff_ne] at heven
      obtain hst | hlevel := heven
      · rw [← h.stands.isOut_base hst, hout]
      · exact hF.isOut_eq_false hlevel
    obtain ⟨hleft, hright⟩ := h.kept hasIs
    rw [hleft, hright, hF.breaks hbase]

/-- Outside of brackets the end of a line may end a statement in the first text. -/
theorem Fits.breaks_of_isOut (hF : F.IsSound) (h : Fits T F asIs st p s s') (hasIs : asIs = true)
    (hout : p.isOut = true) : s.breaks = true :=
  (h.kept hasIs).1.trans (hF.lines (h.stands.isOut_of_isOut hout))

end ServiceScaffold.Syntax
