import ServiceScaffold.Proofs.Syntax.DeclaredNames
import ServiceScaffold.Proofs.Syntax.Foresight
import ServiceScaffold.Proofs.Syntax.Walk

/-!
# Reading does what is foreseen

`Rule.foresee` runs a rule on what is known of the next tokens.  Reading the text has one of the
endings that it gives, and makes no node that would matter to a schema.

* `Node.IsQuiet` : a tree without errors, absent tokens and exports;
* `Scan.Sees` : the state of reading stands before tokens with given signs;
* `Scan.Follows` : what reading has done on the way from one state to another one;
* `Rule.ends_foresee` : **reading has one of the endings that are foreseen**, by induction on the
  rule;
* `ends_foreseeGoal` : the same for the goals of a grammar, if they may be nested deep enough.
-/

namespace ServiceScaffold.Syntax

/-! ### Quiet nodes -/

/-- The tree of the node holds no error, no absent token and no export. -/
def Node.IsQuiet (n : Node) : Prop :=
  ∀ m ∈ n.preorder, m.kind.isQuiet = true ∧ m.missing = false

theorem isQuiet_mk {kind : NodeKind} {field : Option FieldName} {start stop : Location}
    {children : List Node} (hkind : kind.isQuiet = true) (h : ∀ n ∈ children, n.IsQuiet) :
    (Node.mk kind field start stop false children).IsQuiet := by
  intro m hm
  rw [Node.preorder] at hm
  obtain rfl | hbelow := List.mem_cons.1 hm
  · exact ⟨hkind, rfl⟩
  · obtain ⟨n, hn, hmn⟩ := mem_preorderAll.1 hbelow
    exact h n hn m hmn

theorem Node.IsQuiet.withField {n : Node} (h : n.IsQuiet) (f : FieldName) :
    (n.withField f).IsQuiet := by
  obtain ⟨kind, field, start, stop, missing, children⟩ := n
  intro m hm
  rw [Node.withField, Node.preorder] at hm
  obtain rfl | hbelow := List.mem_cons.1 hm
  · have hroot := h (.mk kind field start stop missing children) (by simp [Node.preorder])
    exact hroot
  · exact h m (by simp [Node.preorder, hbelow])

theorem Node.IsQuiet.child {n m : Node} (h : n.IsQuiet) (hm : m ∈ n.children) : m.IsQuiet := by
  obtain ⟨kind, field, start, stop, missing, children⟩ := n
  intro i hi
  refine h i ?_
  rw [Node.preorder]
  exact List.mem_cons_of_mem _ (mem_preorderAll.2 ⟨m, hm, hi⟩)

theorem Node.IsComment.isQuiet {n : Node} (h : n.IsComment) : n.IsQuiet := by
  obtain ⟨kind, field, start, stop, missing, children⟩ := n
  obtain ⟨rfl, rfl, rfl, rfl⟩ := h
  exact isQuiet_mk rfl (fun m hm => by simp at hm)

/-! ### The state of reading -/

/-- The state of reading agrees with the text, and the next tokens bear signs; `k` is left after
them. -/
structure Scan.Sees (source k : List Char) (s : Scan) (gs : List Sign) : Prop
    extends s.Agrees source where
  signs : Signs k s.rest gs

/-- What reading has done on the way from one state to another one, with `rest` of the signs `gs`
left: the nodes that it made are quiet, and it made nodes other than comments only from tokens. -/
structure Scan.Follows (source k : List Char) (s : Scan) (gs : List Sign) (t : Scan)
    (rest : List Sign) : Prop where
  sees : t.Sees source k rest
  lenient : t.isLenient = s.isLenient
  signs_le : rest.length ≤ gs.length
  text : t.rest = afterTokens (gs.length - rest.length) s.rest
  text_le : t.rest.length ≤ s.rest.length
  text_lt : rest.length < gs.length → t.rest.length < s.rest.length
  nodes : ∃ made, t.children = made ++ s.children ∧ (∀ n ∈ made, n.IsQuiet) ∧
    (rest.length < gs.length → made ≠ []) ∧
    (rest.length = gs.length → ∀ n ∈ made, n.IsComment)

section States

variable {source k : List Char} {s t u : Scan} {g : Sign} {gs rest rest' : List Sign}

namespace Scan.Sees

theorem look (h : s.Sees source k (g :: gs)) : g.look.Fits s.next.token := by
  obtain ⟨hagrees, hsigns⟩ := h
  cases hsigns with
  | cons fits _ =>
    rw [← hagrees.sight] at fits
    exact fits.look

theorem flat (h : s.Sees source k (g :: gs)) (hg : g.isFlat = true) :
    s.next.gap.isBroken = false ∧ s.next.gap.isPlain = true := by
  obtain ⟨hagrees, hsigns⟩ := h
  cases hsigns with
  | cons fits _ =>
    rw [← hagrees.sight] at fits
    exact fits.flat hg

theorem signs_tail (h : s.Sees source k (g :: gs)) : Signs k s.next.tail gs := by
  obtain ⟨hagrees, hsigns⟩ := h
  cases hsigns with
  | cons _ rest =>
    rw [← hagrees.sight] at rest
    exact rest

theorem moveTo {stop : Location} {cs : List Char} (hplaced : Placed source stop cs)
    (hsigns : Signs k cs gs) : (s.moveTo stop cs).Sees source k gs :=
  ⟨.moveTo hplaced, hsigns⟩

theorem pushComments (h : s.Sees source k gs) : s.pushComments.Sees source k gs :=
  ⟨h.toAgrees.pushComments, h.signs⟩

/-- What is seen does not depend on the nodes read so far, nor on the mode of reading. -/
theorem ofSame (h : s.Sees source k gs) (hstop : t.stop = s.stop) (hrest : t.rest = s.rest)
    (hnext : t.next = s.next) : t.Sees source k gs :=
  ⟨h.toAgrees.ofSame hstop hrest hnext, hrest.symm ▸ h.signs⟩

end Scan.Sees

namespace Scan.Follows

/-- Nothing has been read, whatever was noted of failures and line breaks. -/
theorem ofSame (h : s.Sees source k gs) (hstop : t.stop = s.stop) (hrest : t.rest = s.rest)
    (hnext : t.next = s.next) (hchildren : t.children = s.children)
    (hlenient : t.isLenient = s.isLenient) : s.Follows source k gs t gs where
  sees := h.ofSame hstop hrest hnext
  lenient := hlenient
  signs_le := Nat.le_refl _
  text := by rw [Nat.sub_self, afterTokens, hrest]
  text_le := by rw [hrest]
  text_lt := fun hlt => absurd hlt (Nat.lt_irrefl _)
  nodes := ⟨[], hchildren, by simp, fun hlt => absurd hlt (Nat.lt_irrefl _), by simp⟩

theorem refl (h : s.Sees source k gs) : s.Follows source k gs s gs :=
  .ofSame h rfl rfl rfl rfl rfl

theorem trans (h : s.Follows source k gs t rest) (h' : t.Follows source k rest u rest') :
    s.Follows source k gs u rest' where
  sees := h'.sees
  lenient := h'.lenient.trans h.lenient
  signs_le := h'.signs_le.trans h.signs_le
  text := by
    have hsigns := h.signs_le
    have hsigns' := h'.signs_le
    rw [h'.text, h.text, ← afterTokens_add]
    congr 1
    omega
  text_le := h'.text_le.trans h.text_le
  text_lt := fun hlt => by
    have hle := h.text_le
    have hle' := h'.text_le
    have hsigns := h.signs_le
    have hsigns' := h'.signs_le
    by_cases hmid : rest.length < gs.length
    · exact lt_of_le_of_lt hle' (h.text_lt hmid)
    · exact lt_of_lt_of_le (h'.text_lt (by omega)) hle
  nodes := by
    obtain ⟨made, hmade, hquiet, hsome, hnone⟩ := h.nodes
    obtain ⟨made', hmade', hquiet', hsome', hnone'⟩ := h'.nodes
    have hsigns := h.signs_le
    have hsigns' := h'.signs_le
    refine ⟨made' ++ made, by rw [hmade', hmade, List.append_assoc], ?_, ?_, ?_⟩
    · intro n hn
      exact (List.mem_append.1 hn).elim (hquiet' n) (hquiet n)
    · intro hlt hnil
      obtain ⟨hnil', hnil⟩ := List.append_eq_nil_iff.1 hnil
      by_cases hmid : rest.length < gs.length
      · exact hsome hmid hnil
      · exact hsome' (by omega) hnil'
    · intro heq n hn
      exact (List.mem_append.1 hn).elim (hnone' (by omega) n) (hnone (by omega) n)

end Scan.Follows

theorem Scan.Sees.pushNearComments (h : s.Sees source k gs) :
    s.pushNearComments.Sees source k gs :=
  ⟨h.toAgrees.pushNearComments, h.signs⟩

/-- The next token becomes a node. -/
theorem follows_take {kind : NodeKind} (h : s.Sees source k (g :: gs))
    (hkind : kind.isQuiet = true) (htoken : s.next.token ≠ .finish) :
    s.Follows source k (g :: gs) (s.take kind) gs where
  sees := .moveTo h.next.placed h.signs_tail
  lenient := rfl
  signs_le := Nat.le_succ _
  text := by
    rw [List.length_cons, Nat.add_sub_cancel_left, afterTokens, afterTokens, ← h.sight]
    rfl
  text_le := (h.tail_lt htoken).le
  text_lt := fun _ => h.tail_lt htoken
  nodes := by
    refine ⟨.mk kind none s.next.start s.next.stop false [] ::
      (s.next.gap.far ++ s.next.gap.near), rfl, fun n hn => ?_, by simp, by simp⟩
    obtain rfl | hcomment := List.mem_cons.1 hn
    · exact isQuiet_mk hkind (by simp)
    · exact (h.comments n hcomment).isQuiet

/-- The comments before a line break become nodes. -/
theorem follows_pushNearComments (h : s.Sees source k gs) :
    s.Follows source k gs s.pushNearComments gs where
  sees := h.pushNearComments
  lenient := rfl
  signs_le := Nat.le_refl _
  text := by
    rw [Nat.sub_self, afterTokens]
    rfl
  text_le := Nat.le_refl _
  text_lt := fun hlt => absurd hlt (Nat.lt_irrefl _)
  nodes := by
    have hnear : ∀ n ∈ s.next.gap.near, n.IsComment :=
      fun n hn => h.comments n (List.mem_append_right _ hn)
    exact ⟨s.next.gap.near, rfl, fun n hn => (hnear n hn).isQuiet,
      fun hlt => absurd hlt (Nat.lt_irrefl _), fun _ => hnear⟩

/-- What is read for a node becomes its children. -/
theorem Scan.Follows.close {kind : NodeKind} (h : s.Sees source k gs)
    (hread : ({ s.pushComments with children := [] } : Scan).Follows source k gs t rest)
    (hkind : kind.isQuiet = true) (hlt : rest.length < gs.length) :
    s.Follows source k gs (s.pushComments.close t kind s.next.start) rest where
  sees := hread.sees.ofSame rfl rfl rfl
  lenient := hread.lenient
  signs_le := hread.signs_le
  text := hread.text
  text_le := hread.text_le
  text_lt := hread.text_lt
  nodes := by
    obtain ⟨made, hmade, hquiet, -, -⟩ := hread.nodes
    refine ⟨.mk kind none s.next.start t.stop false t.children.reverse ::
      (s.next.gap.far ++ s.next.gap.near), rfl, fun n hn => ?_, by simp, fun heq => by omega⟩
    obtain rfl | hcomment := List.mem_cons.1 hn
    · refine isQuiet_mk hkind fun m hm => hquiet m ?_
      have hchildren : t.children = made := by rw [hmade, List.append_nil]
      rwa [List.mem_reverse, hchildren] at hm
    · exact (h.comments n hcomment).isQuiet

/-- The node read last gets a part in its parent. -/
theorem Scan.Follows.withField {field : FieldName} (hread : s.Follows source k gs t rest)
    (hlt : rest.length < gs.length) :
    s.Follows source k gs (match t.children with
      | last :: earlier => { t with children := last.withField field :: earlier }
      | [] => t) rest := by
  obtain ⟨made, hmade, hquiet, hsome, -⟩ := hread.nodes
  rcases made with _ | ⟨last, made⟩
  · exact absurd rfl (hsome hlt)
  rw [hmade, List.cons_append]
  refine ⟨hread.sees.ofSame rfl rfl rfl, hread.lenient, hread.signs_le, hread.text,
    hread.text_le, hread.text_lt, last.withField field :: made, rfl, fun n hn => ?_, by simp,
    fun heq => by omega⟩
  obtain rfl | hold := List.mem_cons.1 hn
  · exact (hquiet last List.mem_cons_self).withField field
  · exact hquiet n (List.mem_cons_of_mem _ hold)

/-! ### Rules -/

/-- Reading ends so. -/
def Ending.Of (source k : List Char) (s : Scan) (gs : List Sign) (r : Reading) : Ending → Prop
  | none => ∃ reach, r = .error reach
  | some rest => ∃ t, r = .ok t ∧ s.Follows source k gs t rest

/-- Reading ends in one of the foreseen ways. -/
def EndsIn (source k : List Char) (s : Scan) (gs : List Sign) (r : Reading) (ends : List Ending) :
    Prop := ∃ e ∈ ends, e.Of source k s gs r

variable {ends : List Ending}

theorem endsIn_error (reach : Nat) : EndsIn source k s gs (.error reach) [none] :=
  ⟨none, List.mem_cons_self, reach, rfl⟩

theorem endsIn_ok (h : s.Follows source k gs t rest) : EndsIn source k s gs (.ok t) [some rest] :=
  ⟨some rest, List.mem_cons_self, t, rfl, h⟩

theorem EndsIn.mono {r : Reading} {more : List Ending} (h : EndsIn source k s gs r ends)
    (hmore : ∀ e ∈ ends, e ∈ more) : EndsIn source k s gs r more := by
  obtain ⟨e, he, hof⟩ := h
  exact ⟨e, hmore e he, hof⟩

/-- What is read from a later state ends as it does there. -/
theorem EndsIn.after {r : Reading} (h : EndsIn source k t rest r ends)
    (hfollows : s.Follows source k gs t rest) : EndsIn source k s gs r ends := by
  obtain ⟨e, he, hof⟩ := h
  refine ⟨e, he, ?_⟩
  cases e with
  | none => exact hof
  | some rest' =>
    obtain ⟨u, hu, hmore⟩ := hof
    exact ⟨u, hu, hfollows.trans hmore⟩

/-- A mode of reading holds for one rule, and `back` ends it. -/
theorem EndsIn.restored {s' : Scan} {r : Reading} {back : Scan → Scan}
    (h : EndsIn source k s' gs r ends)
    (hrest : s'.rest = s.rest) (hchildren : s'.children = s.children)
    (hback : ∀ u : Scan, (back u).stop = u.stop ∧ (back u).rest = u.rest ∧
      (back u).next = u.next ∧ (back u).children = u.children)
    (hlenient : ∀ u : Scan, u.isLenient = s'.isLenient → (back u).isLenient = s.isLenient) :
    EndsIn source k s gs (r.map back) ends := by
  obtain ⟨e, he, hof⟩ := h
  refine ⟨e, he, ?_⟩
  cases e with
  | none =>
    obtain ⟨reach, rfl⟩ := hof
    exact ⟨reach, rfl⟩
  | some rest =>
    obtain ⟨u, rfl, hfollows⟩ := hof
    obtain ⟨hstop, htext, hnext, hnodes⟩ := hback u
    refine ⟨back u, rfl, hfollows.sees.ofSame hstop htext hnext, hlenient u hfollows.lenient,
      hfollows.signs_le, ?_, ?_, ?_, ?_⟩
    · rw [htext, ← hrest, hfollows.text]
    · rw [htext, ← hrest]
      exact hfollows.text_le
    · rw [htext, ← hrest]
      exact hfollows.text_lt
    · rw [hnodes, ← hchildren]
      exact hfollows.nodes

theorem endsIn_accept {test : Test} {kind : NodeKind}
    (h : s.Sees source k gs) (hkind : kind.isQuiet = true) (htest : test ≠ .isToken .finish)
    (hends : foreseeToken test gs = some ends) :
    EndsIn source k s gs (s.accept test.holds kind) ends := by
  rcases gs with _ | ⟨g, gs⟩
  · cases hends
  obtain rfl := Option.some.inj hends
  refine ⟨_, List.mem_map_of_mem (Look.mem_answers h.look test), ?_⟩
  unfold Scan.accept
  by_cases hpass : test.holds s.next.token = true
  · rw [if_pos hpass, if_pos hpass]
    exact ⟨_, rfl, follows_take h hkind (Test.ne_finish hpass htest)⟩
  · rw [if_neg hpass, if_neg hpass]
    exact ⟨_, rfl⟩

/-- A place with less text behind it is another one. -/
theorem Placed.offset_ne {l l' : Location} {cs cs' : List Char} (h : Placed source l cs)
    (h' : Placed source l' cs') (hlt : cs'.length < cs.length) : l'.offset ≠ l.offset := by
  obtain ⟨front, hfront, hoffset⟩ := h
  obtain ⟨front', hfront', hoffset'⟩ := h'
  obtain ⟨piece, rfl⟩ : front <+: front' := by
    refine List.prefix_of_prefix_length_le ⟨cs, hfront.symm⟩ ⟨cs', hfront'.symm⟩ ?_
    have hlength := congrArg List.length (hfront.symm.trans hfront')
    simp only [List.length_append] at hlength
    omega
  rcases piece with _ | ⟨c, piece⟩
  · rw [List.append_nil] at hfront'
    obtain rfl := List.append_cancel_left (hfront.symm.trans hfront')
    exact absurd hlt (Nat.lt_irrefl _)
  · have hpos := byteWidth_pos c
    rw [hoffset, hoffset', byteLength_append, byteLength_cons]
    omega

theorem endsIn_repeatedly {read : Scan → Reading} {foresee : List Sign → Endings} {mild : Bool}
    (hread : ∀ (s : Scan) (gs : List Sign) (ends : List Ending), s.Sees source k gs →
      s.isLenient = mild → foresee gs = some ends → EndsIn source k s gs (read s) ends)
    {fuel fuel' : Nat} (h : s.Sees source k gs) (hmild : s.isLenient = mild)
    (hfuel : s.rest.length < fuel') (hends : foreseeMany foresee fuel gs = some ends) :
    EndsIn source k s gs (.ok (s.repeatedly read fuel')) ends := by
  induction fuel generalizing s gs ends fuel' with
  | zero => cases hends
  | succ fuel ih =>
    obtain ⟨fuel', rfl⟩ := Nat.exists_eq_succ_of_ne_zero (Nat.ne_of_gt (Nat.zero_lt_of_lt hfuel))
    obtain ⟨firsts, hfirsts, hnext⟩ := exists_of_goOn hends
    obtain ⟨e, he, hof⟩ := hread s gs firsts h hmild hfirsts
    obtain ⟨here, hhere, hin⟩ := hnext e he
    cases e with
    | none =>
      obtain ⟨reach, hreach⟩ := hof
      obtain rfl := Option.some.inj hhere
      have hsame : s.Follows source k gs { s with reach := reach } gs :=
        .ofSame h rfl rfl rfl rfl rfl
      rw [Scan.repeatedly, hreach]
      exact (endsIn_ok hsame).mono hin
    | some rest =>
      obtain ⟨t, ht, hfollows⟩ := hof
      dsimp only at hhere
      split_ifs at hhere with hlt
      have htext := hfollows.text_lt hlt
      have hmove : ¬((t.stop.offset = s.stop.offset && t.children.length = s.children.length) =
          true) := by
        have hne := Placed.offset_ne h.placed hfollows.sees.placed htext
        simp [hne]
      rw [Scan.repeatedly, ht]
      simp only [if_neg hmove]
      have hroom : t.rest.length < fuel' := by omega
      exact ((ih hfollows.sees (hfollows.lenient.trans hmild) hroom hhere).after hfollows).mono hin

variable {G : Type} {self : G → Scan → Reading} {foreseeSelf : Bool → G → List Sign → Endings}

/-- What goes on from a reading `first` ends as foreseen if it does so from each ending. -/
theorem endsIn_goOn {o : Endings} {next : Ending → Endings} {first r : Reading} {s' : Scan}
    (hends : o.bind (goOn next) = some ends)
    (hfirst : ∀ firsts, o = some firsts → EndsIn source k s' gs first firsts)
    (hfail : ∀ here reach, next none = some here → first = .error reach →
      EndsIn source k s gs r here)
    (hread : ∀ here rest t, next (some rest) = some here → first = .ok t →
      s'.Follows source k gs t rest → EndsIn source k s gs r here) :
    EndsIn source k s gs r ends := by
  obtain ⟨firsts, hfirsts, hnext⟩ := exists_of_goOn hends
  obtain ⟨e, he, hof⟩ := hfirst firsts hfirsts
  obtain ⟨here, hhere, hin⟩ := hnext e he
  cases e with
  | none =>
    obtain ⟨reach, hreach⟩ := hof
    exact (hfail here reach hhere hreach).mono hin
  | some rest =>
    obtain ⟨t, ht, hfollows⟩ := hof
    exact (hread here rest t hhere ht hfollows).mono hin

/-- The same if the whole fails where `first` does. -/
theorem endsIn_afterReading {o : Endings} {step : List Sign → Endings} {first r : Reading}
    {s' : Scan} (hends : o.bind (goOn (afterReading step)) = some ends)
    (hfirst : ∀ firsts, o = some firsts → EndsIn source k s' gs first firsts)
    (hfail : ∀ reach, first = .error reach → r = .error reach)
    (hread : ∀ here rest t, step rest = some here → first = .ok t →
      s'.Follows source k gs t rest → EndsIn source k s gs r here) :
    EndsIn source k s gs r ends := by
  refine endsIn_goOn hends hfirst (fun here reach hhere hreach => ?_) hread
  obtain rfl := Option.some.inj hhere
  rw [hfail reach hreach]
  exact endsIn_error _

/-- What stands before the next token stops reading at most. -/
theorem endsIn_stop {stops known : Bool} (h : s.Sees source k gs)
    (hknown : known = true → stops = false) :
    EndsIn source k s gs (if stops then .error s.refuse else .ok s)
      (if known then [some gs] else [none, some gs]) := by
  cases known with
  | true =>
    rw [hknown rfl]
    exact endsIn_ok (.refl h)
  | false =>
    cases stops with
    | true => exact (endsIn_error _).mono (by simp)
    | false => exact (endsIn_ok (.refl h)).mono (by simp)

/-- A statement may end only where it is foreseen. -/
theorem Scan.Sees.endsStatement (h : s.Sees source k (g :: gs)) (inExpression : Bool)
    (hlook : (g.isFlat && !g.look.mayEnd) = true) : s.endsStatement inExpression = false := by
  obtain ⟨hflat, hend⟩ := Bool.and_eq_true_iff.1 hlook
  obtain ⟨hbroken, -⟩ := h.flat hflat
  obtain ⟨hfinish, hbrace⟩ := Look.of_mayEnd h.look (by simpa using hend)
  simp [Scan.endsStatement, hbroken, hfinish, hbrace]

/-- A regular expression starts with a slash. -/
theorem Scan.Sees.acceptRegex (h : s.Sees source k (g :: gs)) (hslash : g.look.maySlash = false) :
    s.acceptRegex = .error s.refuse := by
  unfold Scan.acceptRegex
  dsimp only
  split
  · rename_i rest hrest
    obtain ⟨m, hm, hhead⟩ := exists_mark_of_slash rest
    have htoken : s.next.token = .mark m := by
      have hsight := congrArg Sight.token h.sight
      have hbody := congrArg Sight.body h.sight
      rw [sight_eq] at hsight hbody
      rw [show s.next.token = s.next.sight.token from rfl, hsight, ← hm, ← hrest]
      rw [show s.next.gap.rest = s.next.sight.body from rfl, hbody]
    have hlook := h.look
    rw [htoken] at hlook
    exact absurd hhead (Look.of_maySlash hlook hslash)
  · rfl

theorem endsIn_acceptSemicolon (h : s.Sees source k (g :: gs)) (inExpression : Bool) :
    EndsIn source k s (g :: gs) (s.acceptSemicolon inExpression)
      ((g.look.answers (.isMark ";")).flatMap fun passes =>
        if passes then [some gs] else g.ends (g :: gs)) := by
  have hanswer := Look.mem_answers h.look (.isMark ";")
  unfold Scan.acceptSemicolon
  by_cases hmark : (s.next.token == .mark [';']) = true
  · rw [show Test.holds (.isMark ";") s.next.token = true from hmark] at hanswer
    have htoken : s.next.token ≠ .finish := by
      rw [beq_iff_eq.1 hmark]
      simp
    rw [if_pos hmark]
    exact (endsIn_ok (follows_take h rfl htoken)).mono fun e he =>
      List.mem_flatMap.2 ⟨true, hanswer, he⟩
  · rw [show Test.holds (.isMark ";") s.next.token = false from Bool.eq_false_iff.2 hmark]
      at hanswer
    have hin : ∀ e ∈ g.ends (g :: gs), e ∈ (g.look.answers (.isMark ";")).flatMap
        fun passes => if passes then [some gs] else g.ends (g :: gs) :=
      fun e he => List.mem_flatMap.2 ⟨false, hanswer, he⟩
    refine EndsIn.mono ?_ hin
    rw [if_neg hmark, Sign.ends]
    by_cases hlook : (g.isFlat && !g.look.mayEnd) = true
    · rw [h.endsStatement _ hlook, if_neg Bool.false_ne_true, if_pos hlook]
      exact endsIn_error _
    · rw [if_neg hlook]
      split_ifs
      · exact (endsIn_ok (follows_pushNearComments h)).mono (by simp)
      · exact (endsIn_error _).mono (by simp)

theorem endsIn_finish (h : s.Sees source k (g :: gs)) :
    EndsIn source k s (g :: gs) (if s.next.token == .finish then .ok s else .error s.refuse)
      ((g.look.answers (.isToken .finish)).map fun passes =>
        if passes then some (g :: gs) else none) := by
  refine ⟨_, List.mem_map_of_mem (Look.mem_answers h.look (.isToken .finish)), ?_⟩
  rw [Test.holds]
  by_cases hfinish : (s.next.token == .finish) = true
  · rw [if_pos hfinish, if_pos hfinish]
    exact ⟨s, rfl, .refl h⟩
  · rw [if_neg hfinish, if_neg hfinish]
    exact ⟨_, rfl⟩

/-- **Reading has one of the endings that are foreseen.** -/
theorem Rule.ends_foresee
    (hself : ∀ (g : G) (s : Scan) (gs : List Sign) (ends : List Ending), s.Sees source k gs →
      foreseeSelf s.isLenient g gs = some ends → EndsIn source k s gs (self g s) ends)
    (rule : Rule G) {mild : Bool} (h : s.Sees source k gs) (hmild : s.isLenient = mild)
    (hends : rule.foresee foreseeSelf mild gs = some ends) :
    EndsIn source k s gs (rule.read self s) ends := by
  induction rule generalizing s gs ends mild with
  | empty =>
    obtain rfl := Option.some.inj hends
    exact endsIn_ok (.refl h)
  | word letters => exact endsIn_accept h rfl (by simp) hends
  | mark characters => exact endsIn_accept h rfl (by simp) hends
  | name kind except =>
    simp only [foresee] at hends
    split_ifs at hends with hkind
    exact endsIn_accept h hkind (by simp) hends
  | literal token kind =>
    simp only [foresee] at hends
    split_ifs at hends with hkind
    obtain ⟨hkind, hfinish⟩ := Bool.and_eq_true_iff.1 hkind
    exact endsIn_accept h hkind (by simpa using hfinish) hends
  | regex =>
    rcases gs with _ | ⟨g, gs⟩
    · cases hends
    simp only [foresee] at hends
    split_ifs at hends with hslash
    obtain rfl := Option.some.inj hends
    rw [read, h.acceptRegex (by simpa using hslash)]
    exact endsIn_error _
  | templateText => cases hends
  | substitutionStart => cases hends
  | seq first second ihfirst ihsecond =>
    refine endsIn_afterReading hends (fun _ => ihfirst h hmild) ?_ ?_
    · intro reach hfirst
      rw [read, hfirst]
      rfl
    · intro here rest t hhere hfirst hfollows
      rw [read, hfirst]
      exact (ihsecond hfollows.sees (hfollows.lenient.trans hmild) hhere).after hfollows
  | choice first second ihfirst ihsecond =>
    refine endsIn_goOn hends (fun _ => ihfirst h hmild) ?_ ?_
    · intro here reach hhere hfirst
      have hsame : s.Follows source k gs { s with reach := reach } gs :=
        .ofSame h rfl rfl rfl rfl rfl
      simp only [read, hfirst]
      exact (ihsecond hsame.sees hmild hhere).after hsame
    · rintro here rest t ⟨⟩ hfirst hfollows
      simp only [read, hfirst]
      exact endsIn_ok hfollows
  | many rule ih =>
    exact endsIn_repeatedly (fun s gs ends hs hmild hends => ih hs hmild hends) h hmild
      (Nat.lt_succ_self _) hends
  | ahead rule ih =>
    refine endsIn_afterReading hends (fun _ => ih h hmild) ?_ ?_
    · intro reach hfirst
      simp only [read, hfirst]
    · rintro here rest t ⟨⟩ hfirst -
      simp only [read, hfirst]
      exact endsIn_ok (.refl h)
  | notAhead rule ih =>
    refine endsIn_goOn hends (fun _ => ih h hmild) ?_ ?_
    · rintro here reach ⟨⟩ hfirst
      simp only [read, hfirst]
      exact endsIn_ok (.refl h)
    · rintro here rest t ⟨⟩ hfirst -
      simp only [read, hfirst]
      exact endsIn_error _
  | node kind rule ih =>
    have hinner : ({ s.pushComments with children := [] } : Scan).Sees source k gs :=
      h.pushComments.ofSame rfl rfl rfl
    refine endsIn_afterReading hends (fun _ => ih hinner hmild) ?_ ?_
    · intro reach hfirst
      simp only [read, hfirst]
      rfl
    · intro here rest t hhere hfirst hfollows
      split_ifs at hhere with hquiet
      obtain ⟨hquiet, hlt⟩ := Bool.and_eq_true_iff.1 hquiet
      obtain rfl := Option.some.inj hhere
      simp only [read, hfirst]
      exact endsIn_ok (hfollows.close h hquiet (by simpa using hlt))
  | wrap kind rule ih =>
    rcases hchildren : s.children with _ | ⟨last, earlier⟩
    · refine endsIn_goOn hends (fun _ => ih h hmild) ?_ ?_
      · rintro here reach ⟨⟩ -
        simp only [read, hchildren]
        exact endsIn_error _
      · rintro here rest t ⟨⟩
    · have hinner : ({ s with children := [last] } : Scan).Sees source k gs :=
        h.ofSame rfl rfl rfl
      refine endsIn_afterReading hends (fun _ => ih hinner hmild) ?_ ?_
      · intro reach hfirst
        simp only [read, hchildren, hfirst]
        rfl
      · rintro here rest t ⟨⟩
  | part field rule ih =>
    refine endsIn_afterReading hends (fun _ => ih h hmild) ?_ ?_
    · intro reach hfirst
      simp only [read, hfirst]
      rfl
    · intro here rest t hhere hfirst hfollows
      split_ifs at hhere with hlt
      obtain rfl := Option.some.inj hhere
      simp only [read, hfirst]
      exact endsIn_ok (hfollows.withField hlt)
  | breaking breaks rule ih =>
    have hinner : ({ s with breaks := breaks } : Scan).Sees source k gs := h.ofSame rfl rfl rfl
    exact (ih hinner hmild hends).restored rfl rfl (fun _ => ⟨rfl, rfl, rfl, rfl⟩) fun _ hu => hu
  | goesOn inExpression =>
    rcases gs with _ | ⟨g, gs⟩
    · cases hends
    obtain rfl := Option.some.inj hends
    exact endsIn_stop h fun hlook => by rw [h.endsStatement _ hlook, Bool.and_false]
  | sameLine =>
    rcases gs with _ | ⟨g, gs⟩
    · cases hends
    obtain rfl := Option.some.inj hends
    exact endsIn_stop h fun hflat => by rw [(h.flat hflat).1, Bool.and_false]
  | semicolon inExpression =>
    rcases gs with _ | ⟨g, gs⟩
    · cases hends
    obtain rfl := Option.some.inj hends
    exact endsIn_acceptSemicolon h inExpression
  | lenient rule ih =>
    have hinner : ({ s with isLenient := true } : Scan).Sees source k gs := h.ofSame rfl rfl rfl
    exact (ih hinner rfl hends).restored rfl rfl (fun _ => ⟨rfl, rfl, rfl, rfl⟩) fun _ _ => rfl
  | mended rule ih =>
    cases mild with
    | false =>
      simp only [read, hmild, Bool.false_eq_true, if_false]
      exact ih h hmild hends
    | true =>
      have hstrict : ({ s with isLenient := false } : Scan).Sees source k gs := h.ofSame rfl rfl rfl
      refine endsIn_goOn hends (fun _ => ih hstrict rfl) ?_ ?_
      · intro here reach hhere hfirst
        refine endsIn_afterReading hhere (fun _ => ih h hmild) ?_ ?_
        · intro reach' hsecond
          simp only [read, hmild, if_true, hfirst, hsecond]
          rfl
        · rintro here rest t ⟨⟩
      · rintro here rest t ⟨⟩
  | inLenient =>
    obtain rfl := Option.some.inj hends
    simp only [read, hmild]
    cases mild
    · exact endsIn_error _
    · exact endsIn_ok (.refl h)
  | missing kind =>
    simp only [foresee] at hends
    split_ifs at hends with hno
    obtain rfl := Option.some.inj hends
    simp only [read, hmild, if_neg hno]
    exact endsIn_error _
  | finish =>
    rcases gs with _ | ⟨g, gs⟩
    · cases hends
    obtain rfl := Option.some.inj hends
    exact endsIn_finish h
  | skipped stop rule ih =>
    rcases gs with _ | ⟨g, gs⟩
    · cases hends
    simp only [foresee] at hends
    split_ifs at hends with hlook
    obtain rfl := Option.some.inj hends
    have hfinish : s.next.token = .finish := by
      have hfits := h.look
      rw [hlook] at hfits
      exact List.mem_singleton.1 hfits
    simp only [read, Scan.skip, hfinish]
    exact endsIn_error _
  | skippedTo stop =>
    simp only [foresee] at hends
    split_ifs at hends with hno
    obtain rfl := Option.some.inj hends
    simp only [read, hmild, if_neg hno]
    exact endsIn_error _
  | goal g =>
    subst hmild
    exact hself g s gs ends h hends

/-- **Reading by a goal has one of the endings that are foreseen**, if its goals may be nested at
least as deep as foresight goes. -/
theorem ends_foreseeGoal (grammar : G → Rule G) {fuel fuel' : Nat} (hfuel : fuel ≤ fuel') (g : G)
    (h : s.Sees source k gs)
    (hends : foreseeGoal grammar fuel s.isLenient g gs = some ends) :
    EndsIn source k s gs (readGoal grammar fuel' g s) ends := by
  induction fuel generalizing fuel' g s gs ends with
  | zero => cases hends
  | succ fuel ih =>
    obtain ⟨fuel', rfl⟩ := Nat.exists_eq_succ_of_ne_zero (Nat.ne_of_gt (Nat.zero_lt_of_lt hfuel))
    exact Rule.ends_foresee (fun g s gs ends hs hends => ih (Nat.le_of_succ_le_succ hfuel) g hs hends)
      (grammar g) h rfl hends

end States

end ServiceScaffold.Syntax
