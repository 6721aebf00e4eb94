import ServiceScaffold.Proofs.Syntax.LongerTexts
import ServiceScaffold.Proofs.Syntax.Scanning

/-!
# What comes next in a text

The next token of a text does not depend on the place where the text stands, and neither on what
stands behind the next blank or semicolon.

* `Sight` : what there is to see of the next token, wherever the text stands;
* `sight_ofText` : the place does not matter;
* `Sight.ofText_append` : **what comes next in a longer text is what comes next in the text**.
-/

namespace ServiceScaffold.Syntax

/-- What there is to see of the next token, wherever the text stands. -/
structure Sight where
  token : Token
  /-- What follows the token. -/
  tail : List Char
  /-- The text from the token on. -/
  body : List Char
  isBroken : Bool
  isPlain : Bool

/-- What there is to see of a token. -/
def Upcoming.sight (u : Upcoming) : Sight :=
  ⟨u.token, u.tail, u.gap.rest, u.gap.isBroken, u.gap.isPlain⟩

/-- What comes next in a text. -/
def Sight.ofText (cs : List Char) : Sight := (Upcoming.ofText {} cs).sight

/-! ### Gaps -/

/-- What is left after blanks and comments, and whether there is a line break or a blank that is not
of ASCII. -/
def passGap : Nat → Bool → Bool → List Char → List Char × Bool × Bool
  | 0, broken, plain, cs => (cs, broken, plain)
  | _ + 1, broken, plain, [] => ([], broken, plain)
  | fuel + 1, broken, plain, c :: rest =>
    if isSpace c then passGap fuel (broken || c == '\n') (plain && isAsciiSpace c) rest
    else match comment? (c :: rest) with
      | some rest => passGap fuel broken plain rest
      | none => (c :: rest, broken, plain)

theorem gap_extend (fuel : Nat) (g : Gap) :
    ((Gap.extend fuel g).rest, (Gap.extend fuel g).isBroken, (Gap.extend fuel g).isPlain) =
      passGap fuel g.isBroken g.isPlain g.rest := by
  induction fuel generalizing g with
  | zero => rfl
  | succ fuel ih =>
    unfold Gap.extend
    rcases hrest : g.rest with _ | ⟨c, rest⟩
    · simp [passGap, hrest]
    · rw [passGap]
      dsimp only
      split_ifs
      · exact ih _
      · rcases hcomment : comment? (c :: rest) with _ | more
        · simp only [hrest]
        · dsimp only
          rw [ih, Gap.comment]
          dsimp only
          split_ifs with hbroken <;> simp only [hbroken]

/-- More fuel than the text has characters changes nothing. -/
theorem passGap_fuel {fuel fuel' : Nat} {broken plain : Bool} {cs : List Char}
    (h : cs.length < fuel) (h' : cs.length < fuel') :
    passGap fuel broken plain cs = passGap fuel' broken plain cs := by
  induction fuel generalizing fuel' broken plain cs with
  | zero => omega
  | succ fuel ih =>
    obtain ⟨fuel', rfl⟩ := Nat.exists_eq_succ_of_ne_zero (Nat.ne_of_gt (Nat.zero_lt_of_lt h'))
    rcases cs with _ | ⟨c, rest⟩
    · rfl
    · rw [List.length_cons] at h h'
      rw [passGap, passGap]
      split_ifs
      · exact ih (by omega) (by omega)
      · rcases hcomment : comment? (c :: rest) with _ | more
        · rfl
        · have hlength := comment?_length hcomment
          rw [List.length_cons] at hlength
          exact ih (by omega) (by omega)

theorem sight_ofText (l : Location) (cs : List Char) :
    (Upcoming.ofText l cs).sight = Sight.ofText cs := by
  have hsame : ∀ l, ((Gap.ofText l cs).rest, (Gap.ofText l cs).isBroken,
      (Gap.ofText l cs).isPlain) = passGap (cs.length + 1) false true cs := fun l =>
    gap_extend _ _
  have hviews := (hsame l).trans (hsame {}).symm
  simp only [Prod.mk.injEq] at hviews
  obtain ⟨hrest, hbroken, hplain⟩ := hviews
  simp only [Sight.ofText, Upcoming.sight, Upcoming.ofText, hrest, hbroken, hplain]

theorem sight_eq (cs : List Char) : Sight.ofText cs =
    let view := passGap (cs.length + 1) false true cs
    ⟨(Token.ofText view.1).1, (Token.ofText view.1).2, view.1, view.2.1, view.2.2⟩ := by
  have hview := gap_extend (cs.length + 1) ⟨[], [], false, true, {}, {}, cs⟩
  simp only [← hview]
  rfl

/-- A space changes nothing of what comes next. -/
@[simp] theorem Sight.ofText_space (cs : List Char) :
    Sight.ofText (' ' :: cs) = Sight.ofText cs := by
  have hpass : passGap ((' ' :: cs).length + 1) false true (' ' :: cs) =
      passGap (cs.length + 1) false true cs := by
    rw [passGap, if_pos (by decide)]
    rfl
  rw [sight_eq, sight_eq, hpass]

/-- A comment changes nothing of what comes next. -/
theorem Sight.ofText_comment {cs rest : List Char} (h : comment? cs = some rest) :
    Sight.ofText cs = Sight.ofText rest := by
  have hpass : passGap (cs.length + 1) false true cs = passGap (rest.length + 1) false true rest := by
    have hlength := comment?_length h
    rcases cs with _ | ⟨c, cs⟩
    · cases h
    · have hslash : isSpace c = false := by
        unfold comment? at h
        split at h
        · rename_i heq
          obtain ⟨rfl, -⟩ := List.cons.inj heq
          decide
        · rename_i heq
          obtain ⟨rfl, -⟩ := List.cons.inj heq
          decide
        · cases h
      rw [passGap, if_neg (by simp [hslash]), h]
      exact passGap_fuel (by omega) (by omega)
  rw [sight_eq, sight_eq, hpass]

/-- The text starts with a token. -/
def StartsToken (cs : List Char) : Prop :=
  (∀ c ∈ cs.head?, isSpace c = false) ∧ comment? cs = none

theorem startsToken_cons {c : Char} (hspace : isSpace c = false) (hslash : c ≠ '/')
    (cs : List Char) : StartsToken (c :: cs) := by
  refine ⟨fun d hd => by obtain rfl := Option.some.inj hd; exact hspace, ?_⟩
  unfold comment?
  split
  · rename_i heq
    exact absurd (List.cons.inj heq).1 hslash
  · rename_i heq
    exact absurd (List.cons.inj heq).1 hslash
  · rfl

theorem Sight.ofText_token {cs : List Char} (h : StartsToken cs) :
    Sight.ofText cs = ⟨(Token.ofText cs).1, (Token.ofText cs).2, cs, false, true⟩ := by
  have hpass : passGap (cs.length + 1) false true cs = (cs, false, true) := by
    rcases cs with _ | ⟨c, cs⟩
    · rfl
    · have hspace : isSpace c = false := h.1 c rfl
      rw [passGap, if_neg (by simp [hspace]), h.2]
  rw [sight_eq, hpass]

/-- After a line break there is a line break. -/
theorem Sight.ofText_newline (cs : List Char) :
    Sight.ofText ('\n' :: cs) = { Sight.ofText cs with isBroken := true } := by
  have hbroken : ∀ fuel broken plain cs, passGap fuel true plain cs =
      ((passGap fuel broken plain cs).1, true, (passGap fuel broken plain cs).2.2) := by
    intro fuel
    induction fuel with
    | zero => intros; rfl
    | succ fuel ih =>
      intro broken plain cs
      rcases cs with _ | ⟨c, rest⟩
      · rfl
      · rw [passGap, passGap]
        split_ifs
        · rw [Bool.true_or]
          exact ih _ _ _
        · rcases comment? (c :: rest) with _ | more
          · rfl
          · exact ih _ _ _
  have hpass : passGap (('\n' :: cs).length + 1) false true ('\n' :: cs) =
      passGap (cs.length + 1) true true cs := by
    rw [passGap, if_pos (by decide)]
    rfl
  rw [sight_eq, sight_eq, hpass]
  simp only [hbroken (cs.length + 1) false true cs]

/-- Behind blanks and comments there is a token. -/
theorem startsToken_passGap {fuel : Nat} {broken plain : Bool} {cs : List Char}
    (h : cs.length < fuel) :
    StartsToken (passGap fuel broken plain cs).1 := by
  induction fuel generalizing broken plain cs with
  | zero => omega
  | succ fuel ih =>
    rcases cs with _ | ⟨c, rest⟩
    · exact ⟨by simp [passGap], rfl⟩
    · rw [List.length_cons] at h
      rw [passGap]
      split_ifs with hspace
      · exact ih (by omega)
      · rcases hcomment : comment? (c :: rest) with _ | more
        · exact ⟨fun d hd => by obtain rfl := Option.some.inj hd; simpa using hspace, hcomment⟩
        · have hlength := comment?_length hcomment
          rw [List.length_cons] at hlength
          exact ih (by omega)

theorem Sight.startsToken_body (cs : List Char) : StartsToken (Sight.ofText cs).body := by
  rw [sight_eq]
  exact startsToken_passGap (by omega)

/-- What is seen from the token on. -/
theorem Sight.ofText_body (cs : List Char) : Sight.ofText (Sight.ofText cs).body =
    ⟨(Sight.ofText cs).token, (Sight.ofText cs).tail, (Sight.ofText cs).body, false, true⟩ := by
  rw [Sight.ofText_token (Sight.startsToken_body cs)]
  rw [sight_eq]

/-! ### Longer texts -/

section

variable {k : List Char}

theorem blockCommentTail?_append {cs rest : List Char} (h : blockCommentTail? cs = some rest) :
    blockCommentTail? (cs ++ k) = some (rest ++ k) := by
  fun_induction blockCommentTail? cs with
  | case1 => cases h
  | case2 more =>
    obtain rfl := Option.some.inj h
    rfl
  | case3 c cs hno ih =>
    rw [List.cons_append, blockCommentTail?.eq_def]
    split
    · rename_i heq
      cases heq
    · rename_i rest' heq
      obtain ⟨rfl, hcs⟩ := List.cons.inj heq
      rcases cs with _ | ⟨d, cs⟩
      · cases h
      · obtain ⟨rfl, -⟩ := List.cons.inj hcs
        exact absurd rfl (hno cs rfl)
    · rename_i heq
      obtain ⟨rfl, rfl⟩ := List.cons.inj heq
      exact ih h

/-- A comment that ends within a text ends there in a longer one. -/
theorem comment?_append {cs rest : List Char} (hrest : rest ≠ []) (h : comment? cs = some rest) :
    comment? (cs ++ k) = some (rest ++ k) := by
  unfold comment? at h
  split at h
  · obtain rfl := Option.some.inj h
    simp only [List.cons_append, comment?, List.dropWhile_append, List.isEmpty_iff, hrest, if_false]
  · exact blockCommentTail?_append h
  · cases h

theorem comment?_append_of_none {cs : List Char} (hcs : ∀ rest, cs ≠ '/' :: rest)
    (h : cs ≠ []) : comment? (cs ++ k) = none := by
  rcases cs with _ | ⟨c, cs⟩
  · exact absurd rfl h
  · unfold comment?
    split
    · rename_i heq
      exact absurd (List.cons.inj heq).1 fun hc => hcs cs (hc ▸ rfl)
    · rename_i heq
      exact absurd (List.cons.inj heq).1 fun hc => hcs cs (hc ▸ rfl)
    · rfl

/-- What is passed over at the start of a longer text is what is passed over in the text, unless
nothing is left of it. -/
theorem passGap_append {fuel fuel' : Nat} {broken plain : Bool} {cs : List Char}
    (hfuel : cs.length < fuel) (hfuel' : cs.length < fuel')
    (hrest : (passGap fuel broken plain cs).1 ≠ [])
    (hslash : (passGap fuel broken plain cs).1.head? ≠ some '/') :
    passGap fuel' broken plain (cs ++ k) =
      ((passGap fuel broken plain cs).1 ++ k, (passGap fuel broken plain cs).2) := by
  induction fuel generalizing fuel' broken plain cs with
  | zero => omega
  | succ fuel ih =>
    obtain ⟨fuel', rfl⟩ := Nat.exists_eq_succ_of_ne_zero (Nat.ne_of_gt (Nat.zero_lt_of_lt hfuel'))
    rcases cs with _ | ⟨c, cs⟩
    · exact absurd rfl hrest
    rw [List.length_cons] at hfuel hfuel'
    rw [passGap] at hrest hslash
    rw [List.cons_append, passGap, passGap]
    by_cases hc : isSpace c = true
    · rw [if_pos hc] at hrest hslash
      rw [if_pos hc, if_pos hc]
      exact ih (by omega) (by omega) hrest hslash
    · rw [if_neg hc] at hrest hslash
      rw [if_neg hc, if_neg hc]
      rcases hcomment : comment? (c :: cs) with _ | rest
      · have hlonger : comment? (c :: (cs ++ k)) = none := by
          simp only [hcomment] at hslash
          exact comment?_append_of_none (fun rest hrest => hslash (congrArg List.head? hrest))
            (List.cons_ne_nil c cs)
        rw [hlonger]
        rfl
      · simp only [hcomment] at hrest hslash
        have hlength := comment?_length hcomment
        rw [List.length_cons] at hlength
        have hne : rest ≠ [] := by
          rintro rfl
          rcases fuel with _ | fuel <;> exact hrest rfl
        have hlonger : comment? (c :: (cs ++ k)) = some (rest ++ k) := comment?_append hne hcomment
        rw [hlonger]
        exact ih (by omega) (by omega) hrest hslash

/-- **What comes next in a longer text is what comes next in the text.** -/
theorem Sight.ofText_append (hk : endsToken k = true) {cs : List Char}
    (hfinish : (Sight.ofText cs).token ≠ .finish) (hstray : (Sight.ofText cs).token ≠ .stray)
    (hslash : (Sight.ofText cs).body.head? ≠ some '/') :
    Sight.ofText (cs ++ k) = { Sight.ofText cs with
      tail := (Sight.ofText cs).tail ++ k, body := (Sight.ofText cs).body ++ k } := by
  rw [sight_eq] at hfinish hstray hslash ⊢
  rw [sight_eq]
  dsimp only at hfinish hstray hslash ⊢
  have hrest : (passGap (cs.length + 1) false true cs).1 ≠ [] := by
    intro hnil
    rw [hnil] at hfinish
    exact hfinish rfl
  rw [passGap_append (by omega) (by rw [List.length_append]; omega) hrest hslash,
    Token.ofText_append hk hrest hstray]

end

/-! ### Shorter texts -/

theorem passGap_suffix (fuel : Nat) (broken plain : Bool) (cs : List Char) :
    (passGap fuel broken plain cs).1 <:+ cs := by
  induction fuel generalizing broken plain cs with
  | zero => exact List.suffix_rfl
  | succ fuel ih =>
    rcases cs with _ | ⟨c, cs⟩
    · exact List.suffix_rfl
    · rw [passGap]
      split_ifs
      · exact suffix_cons_of_suffix (ih _ _ _)
      · rcases hcomment : comment? (c :: cs) with _ | rest
        · exact List.suffix_rfl
        · exact (ih _ _ _).trans (comment?_suffix hcomment)

/-- A token starts within the text. -/
theorem Sight.body_suffix (cs : List Char) : (Sight.ofText cs).body <:+ cs := by
  rw [sight_eq]
  exact passGap_suffix _ _ _ _

/-- What follows a token is shorter than the text. -/
theorem Sight.tail_length_lt {cs : List Char} (h : (Sight.ofText cs).token ≠ .finish) :
    (Sight.ofText cs).tail.length < cs.length := by
  have hbody := (Sight.body_suffix cs).length_le
  rw [sight_eq] at h hbody ⊢
  dsimp only at h hbody ⊢
  refine lt_of_lt_of_le (Token.ofText_lt fun hnil => ?_) hbody
  rw [hnil] at h
  exact h rfl

/-! ### Comments before a token -/

/-- The node is a comment. -/
structure Node.IsComment (n : Node) : Prop where
  kind : n.kind = .comment
  field : n.field = none
  missing : n.missing = false
  children : n.children = []

/-- What stands before a token becomes comments only. -/
def Gap.HoldsComments (g : Gap) : Prop := ∀ n ∈ g.far ++ g.near, n.IsComment

theorem Gap.HoldsComments.extend {g : Gap} (h : g.HoldsComments) (fuel : Nat) :
    (Gap.extend fuel g).HoldsComments := by
  induction fuel generalizing g with
  | zero => exact h
  | succ fuel ih =>
    unfold Gap.extend
    split
    · exact h
    · split_ifs
      · exact ih h
      · split
        · rename_i rest hcomment
          refine ih fun n hn => ?_
          unfold Gap.comment at hn
          dsimp only at hn
          split_ifs at hn
          · obtain rfl | hold := List.mem_cons.1 hn
            · exact ⟨rfl, rfl, rfl, rfl⟩
            · exact h n hold
          · obtain hfar | hnear := List.mem_append.1 hn
            · exact h n (List.mem_append_left _ hfar)
            · obtain rfl | hold := List.mem_cons.1 hnear
              · exact ⟨rfl, rfl, rfl, rfl⟩
              · exact h n (List.mem_append_right _ hold)
        · exact h

theorem holdsComments_ofText (l : Location) (cs : List Char) :
    (Upcoming.ofText l cs).gap.HoldsComments :=
  Gap.HoldsComments.extend (g := ⟨[], [], false, true, l, l, cs⟩) (by simp [Gap.HoldsComments]) _

/-- No comment stands before the first token. -/
def startsClear (cs : List Char) : Bool := (comment? (cs.dropWhile isSpace)).isNone

theorem no_comments_ofText {cs : List Char} (hclear : startsClear cs = true) (l : Location) :
    (Upcoming.ofText l cs).gap.far ++ (Upcoming.ofText l cs).gap.near = [] := by
  have hextend : ∀ fuel (g : Gap), startsClear g.rest = true → g.far = [] → g.near = [] →
      (Gap.extend fuel g).far = [] ∧ (Gap.extend fuel g).near = [] := by
    intro fuel
    induction fuel with
    | zero => exact fun g _ hfar hnear => ⟨hfar, hnear⟩
    | succ fuel ih =>
      intro g hg hfar hnear
      unfold Gap.extend
      split
      · exact ⟨hfar, hnear⟩
      · rename_i c rest hrest
        rw [hrest] at hg
        split_ifs with hc
        · refine ih _ ?_ hfar hnear
          rwa [startsClear, List.dropWhile_cons_of_pos hc] at hg
        · rw [startsClear, List.dropWhile_cons_of_neg hc] at hg
          rw [Option.isNone_iff_eq_none.1 hg]
          exact ⟨hfar, hnear⟩
  obtain ⟨hfar, hnear⟩ := hextend (cs.length + 1) ⟨[], [], false, true, l, l, cs⟩ hclear rfl rfl
  exact List.append_eq_nil_iff.2 ⟨hfar, hnear⟩

/-! ### The state of reading -/

/-- The state of reading agrees with the text. -/
structure Scan.Agrees (source : List Char) (s : Scan) : Prop where
  placed : Placed source s.stop s.rest
  next : s.next.In source
  sight : s.next.sight = Sight.ofText s.rest
  comments : s.next.gap.HoldsComments
  clear : startsClear s.rest = true → s.next.gap.far ++ s.next.gap.near = []

namespace Scan.Agrees

variable {source : List Char} {s t : Scan}

theorem tail_lt (h : s.Agrees source) (htoken : s.next.token ≠ .finish) :
    s.next.tail.length < s.rest.length := by
  have hlt : (Sight.ofText s.rest).token ≠ .finish → _ := Sight.tail_length_lt
  rw [← h.sight] at hlt
  exact hlt htoken

theorem moveTo {stop : Location} {cs : List Char} (hplaced : Placed source stop cs) :
    (s.moveTo stop cs).Agrees source where
  placed := hplaced
  next := Upcoming.in_ofText hplaced
  sight := sight_ofText _ _
  comments := holdsComments_ofText _ _
  clear := fun hclear => no_comments_ofText hclear _

theorem pushComments (h : s.Agrees source) : s.pushComments.Agrees source where
  placed := h.placed
  next := ⟨⟨h.next.gap.placed, (absurd · List.not_mem_nil), (absurd · List.not_mem_nil)⟩,
    h.next.placed, h.next.word⟩
  sight := h.sight
  comments := by simp [Gap.HoldsComments, Scan.pushComments]
  clear := fun _ => rfl

theorem pushNearComments (h : s.Agrees source) : s.pushNearComments.Agrees source where
  placed := h.placed
  next := ⟨⟨h.next.gap.placed, (absurd · List.not_mem_nil), h.next.gap.far⟩, h.next.placed,
    h.next.word⟩
  sight := h.sight
  comments := fun n hn =>
    h.comments n (List.mem_append_left _ (by simpa [Scan.pushNearComments] using hn))
  clear := fun hclear => by
    have hnone := (List.append_eq_nil_iff.1 (h.clear hclear)).1
    simp [Scan.pushNearComments, hnone]

/-- Agreement does not depend on the nodes read so far, nor on the mode of reading. -/
theorem ofSame (h : s.Agrees source) (hstop : t.stop = s.stop) (hrest : t.rest = s.rest)
    (hnext : t.next = s.next) : t.Agrees source where
  placed := by rw [hstop, hrest]; exact h.placed
  next := by rw [hnext]; exact h.next
  sight := by rw [hnext, hrest]; exact h.sight
  comments := by rw [hnext]; exact h.comments
  clear := by rw [hnext, hrest]; exact h.clear

end Scan.Agrees

end ServiceScaffold.Syntax
