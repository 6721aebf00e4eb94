import Mathlib.Data.List.Infix
import ServiceScaffold.FilePath.Basic
import ServiceScaffold.Proofs.Text.Splitting

/-!
# Components of joined paths and of parents

A path is cut into pieces at its slashes, and all operations on paths work on its text.  What they
do to the components is said here.

* `FilePath.components_join` : joining a relative path adds the components of its pieces;
* `FilePath.components_join_inner` : joining a path that stays inside adds steps that stay inside;
* `FilePath.IsBelow` : a path goes on from a directory and stays inside it;
* `FilePath.components_parent?` : **the parent of a path leads through all components but the
  last**, whatever empty pieces and dots stand at its end.
-/

namespace ServiceScaffold

namespace FilePath

open Text

variable {p q dir : FilePath}

/-- The components that the pieces of a text between its slashes stand for. -/
def innerOf (cs : List Char) : List Component := (splitOn isSlash cs).filterMap Component.ofPiece?

@[simp] theorem innerOf_nil : innerOf [] = [] := rfl

theorem innerOf_append_slash (a b : List Char) :
    innerOf (a ++ '/' :: b) = innerOf a ++ innerOf b := by
  simp [innerOf, splitOn_append_cons (p := isSlash) (c := '/') rfl]

theorem innerOf_slash (b : List Char) : innerOf ('/' :: b) = innerOf b := by
  simpa using innerOf_append_slash [] b

/-- What a path starts with besides its pieces. -/
def leading (p : FilePath) : List Component :=
  if p.isAbsolute then [.root] else if p.startsHere then [.current] else []

theorem components_eq (p : FilePath) : p.components = p.leading ++ innerOf p.chars := rfl

@[simp] theorem startsHere_cons_cons (x y : Char) (rest : List Char) :
    startsHere ⟨x :: y :: rest⟩ = (x == '.' && y == '/') := by
  unfold startsHere
  split
  · rename_i h; simp at h
  · rename_i h; simp at h; simp [h.1, h.2.1]
  · rename_i h
    by_cases hx : x = '.'
    · subst hx
      have hy : y ≠ '/' := by rintro rfl; exact h rest rfl
      simp [hy]
    · simp [hx]

theorem leading_append_slash {cs : List Char} (h : cs ≠ []) (b : List Char) :
    leading ⟨cs ++ '/' :: b⟩ = leading ⟨cs⟩ := by
  rcases cs with _ | ⟨x, _ | ⟨y, rest⟩⟩
  · exact absurd rfl h
  · by_cases hx : x = '.'
    · subst hx; rfl
    · have hd : startsHere ⟨[x]⟩ = false := by simp [startsHere, hx]
      simp [leading, isAbsolute, hd, hx]
  · simp [leading, isAbsolute]

/-! ### Joining -/

/-- Joining a relative path adds what its pieces stand for. -/
theorem components_join {p q : FilePath} (hp : p.chars ≠ []) (hq : q.isAbsolute = false) :
    (p.join q).components = p.components ++ innerOf q.chars := by
  obtain ⟨cs⟩ := p
  have hne : cs.isEmpty = false := by simpa using hp
  by_cases hlast : cs.getLast? = some '/'
  · obtain ⟨a, rfl⟩ := List.getLast?_eq_some_iff.1 hlast
    have hjoin : join ⟨a ++ ['/']⟩ q = ⟨a ++ '/' :: q.chars⟩ := by simp [join, hq]
    rw [hjoin, components_eq, components_eq]
    rcases a with _ | ⟨x, a⟩
    · simp [leading, isAbsolute, innerOf_slash]
    · rw [leading_append_slash (by simp), leading_append_slash (by simp), innerOf_append_slash,
        innerOf_append_slash, innerOf_nil, List.append_nil, List.append_assoc]
  · have hjoin : join ⟨cs⟩ q = ⟨cs ++ '/' :: q.chars⟩ := by simp [join, hq, hlast, hp]
    rw [hjoin, components_eq, components_eq, leading_append_slash hp, innerOf_append_slash,
      List.append_assoc]

/-- Joining a path that stays inside its directory adds steps that stay inside. -/
theorem components_join_inner (p : FilePath) {q : FilePath}
    (hq : q.components.all Component.isInner = true) :
    ∃ more, (p.join q).components = p.components ++ more ∧
      more.all Component.isInner = true ∧
      more.filterMap Component.name? = q.components.filterMap Component.name? := by
  have habs : q.isAbsolute = false := by
    by_contra h
    rw [components_eq, leading, if_pos (by simpa using h)] at hq
    simp [Component.isInner] at hq
  have hnames : q.leading.filterMap Component.name? = [] := by
    unfold leading
    split_ifs <;> rfl
  by_cases hp : p.chars = []
  · have hjoin : p.join q = q := by simp [join, habs, hp]
    refine ⟨q.components, ?_, hq, rfl⟩
    rw [hjoin, components_eq p]
    simp [hp, leading, isAbsolute, startsHere]
  · refine ⟨innerOf q.chars, components_join hp habs, ?_, ?_⟩
    · rw [components_eq, List.all_append, Bool.and_eq_true] at hq
      exact hq.2
    · rw [components_eq, List.filterMap_append, hnames, List.nil_append]

/-- The text of a joined path ends with that of the second. -/
theorem exists_join_eq (dir q : FilePath) : ∃ front, dir.join q = ⟨front ++ q.chars⟩ := by
  unfold join
  split_ifs
  · exact ⟨[], rfl⟩
  · exact ⟨dir.chars, rfl⟩
  · exact ⟨dir.chars ++ ['/'], by simp⟩

/-- A path without components is empty: what it starts with is a component. -/
theorem components_ne_nil (h : p.chars ≠ []) : p.components ≠ [] := by
  rcases p with ⟨_ | ⟨c, cs⟩⟩
  · exact absurd rfl h
  rw [components_eq, leading]
  split_ifs with habs hhere
  · simp
  · simp
  · have hc : isSlash c = false := by simpa [isAbsolute, isSlash] using habs
    rw [List.nil_append, innerOf, splitOn, hc]
    rcases hsplit : splitOn isSlash cs with _ | ⟨piece, pieces⟩
    · exact absurd hsplit (splitOn_ne_nil isSlash cs)
    -- a first piece that counts for nothing is a dot of the path's own
    · rcases hpiece : Component.ofPiece? (c :: piece) with _ | component
      · exfalso
        have hdot : c :: piece = [] ∨ c :: piece = ['.'] := by
          by_contra hnone
          rw [Component.ofPiece?, if_neg hnone] at hpiece
          split_ifs at hpiece
        obtain ⟨rfl, rfl⟩ : c = '.' ∧ piece = [] := by simpa using hdot
        rcases cs with _ | ⟨d, cs⟩
        · exact hhere rfl
        · by_cases hd : d = '/'
          · subst hd
            exact hhere rfl
          · rw [splitOn, isSlash, beq_eq_false_iff_ne.2 hd, if_neg Bool.false_ne_true] at hsplit
            split at hsplit <;> simp at hsplit
      · change List.filterMap Component.ofPiece? ((c :: piece) :: pieces) ≠ []
        rw [List.filterMap_cons_some hpiece]
        exact List.cons_ne_nil _ _

theorem join_of_isAbsolute (h : q.isAbsolute = true) : dir.join q = q := by simp [join, h]

theorem join_of_empty (h : dir.chars = []) : dir.join q = q := by simp [join, h]

theorem components_eq_nil : p.components = [] ↔ p.chars = [] := by
  refine ⟨fun h => by_contra fun hne => components_ne_nil hne h, fun h => ?_⟩
  obtain rfl : p = ⟨[]⟩ := congrArg FilePath.mk h
  rfl

theorem chars_ne_nil (h : p.components ≠ []) : p.chars ≠ [] :=
  fun hnil => h (components_eq_nil.2 hnil)

/-- A path that starts with a piece of its own goes on from the directory. -/
theorem components_join_of_leading (dir : FilePath) (h : q.leading = []) :
    (dir.join q).components = dir.components ++ q.components := by
  have habs : q.isAbsolute = false := by
    by_contra habs
    rw [leading, if_pos (by simpa using habs)] at h
    cases h
  by_cases hdir : dir.chars = []
  · rw [join_of_empty hdir, components_eq_nil.2 hdir, List.nil_append]
  · rw [components_join hdir habs, q.components_eq, h, List.nil_append]

/-! ### Below a directory -/

/-- The path goes on from a directory and stays inside it. -/
def IsBelow (dir q : FilePath) : Prop :=
  ∃ more, q.components = dir.components ++ more ∧ more.all Component.isInner = true

theorem IsBelow.trans {p q r : FilePath} (h : IsBelow p q) (h' : IsBelow q r) : IsBelow p r := by
  obtain ⟨more, hq, hmore⟩ := h
  obtain ⟨more', hr, hmore'⟩ := h'
  refine ⟨more ++ more', by rw [hr, hq, List.append_assoc], ?_⟩
  rw [List.all_append, hmore, hmore']
  rfl

theorem isBelow_join (dir : FilePath) {q : FilePath}
    (hq : q.components.all Component.isInner = true) : IsBelow dir (dir.join q) := by
  obtain ⟨more, hmore, hinner, -⟩ := dir.components_join_inner hq
  exact ⟨more, hmore, hinner⟩

/-! ### Parents -/

/-- `b` is `a`, or what stands before a slash of `a`, or nothing. -/
def CutOf (a b : List Char) : Prop := b = a ∨ b = [] ∨ ∃ rest, a = b ++ '/' :: rest

theorem CutOf.trans {a b c : List Char} (hab : CutOf a b) (hbc : CutOf b c) : CutOf a c := by
  rcases hbc with rfl | rfl | ⟨r, rfl⟩
  · exact hab
  · exact .inr (.inl rfl)
  · rcases hab with h | h | ⟨s, rfl⟩
    · exact .inr (.inr ⟨r, h.symm⟩)
    · simp at h
    · exact .inr (.inr ⟨r ++ '/' :: s, by simp⟩)

/-- A text is cut at its last slash. -/
theorem exists_lastPiece (cs : List Char) :
    '/' ∉ (lastPiece cs).1 ∧ (cs = (lastPiece cs).1 ∧ (lastPiece cs).2 = cs.length ∨
      ∃ front, cs = front ++ '/' :: (lastPiece cs).1 ∧
        (lastPiece cs).2 = (lastPiece cs).1.length + 1) := by
  have hsplit := List.takeWhile_append_dropWhile (p := (!isSlash ·)) (l := cs.reverse)
  have hno : '/' ∉ cs.reverse.takeWhile (!isSlash ·) := by
    intro h
    simpa [isSlash] using List.all_eq_true.1 List.all_takeWhile _ h
  refine ⟨by simpa [lastPiece] using hno, ?_⟩
  cases hd : cs.reverse.dropWhile (!isSlash ·) with
  | nil =>
    rw [hd, List.append_nil] at hsplit
    have hpiece : (lastPiece cs).1 = cs := by simp [lastPiece, hsplit]
    refine .inl ⟨hpiece.symm, ?_⟩
    simp [lastPiece, hsplit]
  | cons c rest =>
    have hc : c = '/' := by
      have := List.head?_dropWhile_not (!isSlash ·) cs.reverse
      rw [hd] at this
      simpa [isSlash] using this
    subst hc
    have hcs : cs = rest.reverse ++ '/' :: (lastPiece cs).1 := by
      have := congrArg List.reverse hsplit
      rw [hd] at this
      simpa [lastPiece] using this.symm
    refine .inr ⟨rest.reverse, hcs, ?_⟩
    have hlt : (lastPiece cs).1.length < cs.length := by
      have := congrArg List.length hcs
      simp only [List.length_append, List.length_cons] at this
      omega
    simp only [lastPiece] at hlt ⊢
    rw [if_pos hlt]

/-- Without its last piece and the slash before it, a text stands for what stands before that. -/
theorem innerOf_lastPiece (cs : List Char) :
    (lastPiece cs).2 ≤ cs.length ∧ (cs ≠ [] → 0 < (lastPiece cs).2) ∧
      CutOf cs (cs.take (cs.length - (lastPiece cs).2)) ∧
      innerOf cs = innerOf (cs.take (cs.length - (lastPiece cs).2)) ++
        (Component.ofPiece? (lastPiece cs).1).toList := by
  obtain ⟨hno, ⟨hcs, hwidth⟩ | ⟨front, hcs, hwidth⟩⟩ := exists_lastPiece cs
  · rw [hwidth, Nat.sub_self, List.take_zero]
    refine ⟨le_rfl, fun h => List.length_pos_iff.2 h, .inr (.inl rfl), ?_⟩
    have hsplit : splitOn isSlash cs = [cs] :=
      splitOn_eq_self fun c hc => by
        rw [hcs] at hc
        simpa [isSlash] using fun h : c = '/' => hno (h ▸ hc)
    rw [← hcs, innerOf, hsplit]
    cases h : Component.ofPiece? cs <;> simp [h]
  · generalize (lastPiece cs).1 = piece at *
    have htake : cs.take (cs.length - (lastPiece cs).2) = front := by
      rw [hwidth, hcs]
      simp
    have hsplit : splitOn isSlash piece = [piece] :=
      splitOn_eq_self fun c hc => by simpa [isSlash] using fun h : c = '/' => hno (h ▸ hc)
    rw [htake, hwidth]
    refine ⟨by rw [hcs]; simp, fun _ => by omega, .inr (.inr ⟨piece, hcs⟩), ?_⟩
    rw [hcs, innerOf_append_slash]
    congr 1
    rw [innerOf, hsplit]
    cases h : Component.ofPiece? piece <;> simp [h]

theorem take_head_append {head cs : List Char} {width : Nat} (h : width ≤ cs.length) :
    (head ++ cs).take ((head ++ cs).length - width) = head ++ cs.take (cs.length - width) := by
  rw [List.take_append, List.length_append, List.take_of_length_le (by omega)]
  congr 2
  omega

/-- Cutting empty pieces and dots off keeps the components. -/
theorem trimPieces_spec (head : List Char) (fuel : Nat) (cs : List Char) :
    ∃ body, trimPieces head.length fuel (head ++ cs) = head ++ body ∧ CutOf cs body ∧
      innerOf body = innerOf cs ∧
      (cs.length ≤ fuel → body ≠ [] → (Component.ofPiece? (lastPiece body).1).isSome) := by
  induction fuel generalizing cs with
  | zero =>
    refine ⟨cs, by rw [trimPieces], .inl rfl, rfl, fun h hne => ?_⟩
    exact absurd (List.length_eq_zero_iff.1 (Nat.le_zero.1 h)) hne
  | succ fuel ih =>
    obtain ⟨hle, hpos, hcut, hinner⟩ := innerOf_lastPiece cs
    rw [trimPieces, List.drop_left]
    rcases hlp : lastPiece cs with ⟨piece, width⟩
    rw [hlp] at hle hpos hcut hinner
    simp only [take_head_append hle]
    -- only the head is left
    by_cases hlen : (head ++ cs).length ≤ head.length
    · obtain rfl : cs = [] := by
        rw [List.length_append] at hlen
        exact List.length_eq_zero_iff.1 (by omega)
      exact ⟨[], by simp, .inl rfl, rfl, fun _ h => absurd rfl h⟩
    rw [if_neg hlen]
    -- the last piece is empty or a dot and cut off, or it counts and stays
    by_cases hnone : (Component.ofPiece? piece).isNone = true
    · obtain ⟨body, hbody, hcut', hinner', hlast⟩ := ih (cs.take (cs.length - width))
      refine ⟨body, by rw [if_pos hnone, hbody], hcut.trans hcut', ?_, fun h => hlast ?_⟩
      · rw [hinner', hinner, Option.isNone_iff_eq_none.1 hnone, Option.toList_none,
          List.append_nil]
      · have hne : cs ≠ [] := by rintro rfl; simp at hlen
        have := hpos hne
        rw [List.length_take]
        omega
    · refine ⟨cs, if_neg hnone, .inl rfl, rfl, fun _ _ => ?_⟩
      rw [hlp]
      simpa [Option.isSome_iff_ne_none] using hnone

theorem isAbsolute_of_startsHere {p : FilePath} (h : p.startsHere = true) :
    p.isAbsolute = false := by
  unfold startsHere at h
  unfold isAbsolute
  split at h
  · rename_i hp; rw [hp]; rfl
  · rename_i hp; rw [hp]; rfl
  · simp at h

theorem leading_cutOf {a b : List Char} (h : CutOf a b) (ha : leading ⟨a⟩ = []) :
    leading ⟨b⟩ = [] := by
  obtain rfl | rfl | ⟨rest, rfl⟩ := h
  · exact ha
  · rfl
  · by_cases hb : b = []
    · subst hb; rfl
    · rwa [leading_append_slash hb] at ha

theorem CutOf.of_slash {rest b : List Char} (h : CutOf ('/' :: rest) b) :
    b = [] ∨ ∃ r, b = '/' :: r := by
  obtain rfl | rfl | ⟨r, h⟩ := h
  · exact .inr ⟨rest, rfl⟩
  · exact .inl rfl
  · rcases b with _ | ⟨x, b⟩
    · exact .inl rfl
    · obtain ⟨rfl, -⟩ := List.cons.inj h
      exact .inr ⟨b, rfl⟩

/-- A path is a root or a leading dot, and what follows; cutting the latter keeps the former. -/
theorem exists_head (p : FilePath) :
    ∃ head tail, p.chars = head ++ tail ∧ p.headLength = head.length ∧
      ∀ body, CutOf tail body → components ⟨head ++ body⟩ = p.leading ++ innerOf body := by
  obtain ⟨cs⟩ := p
  by_cases habs : isAbsolute ⟨cs⟩ = true
  · obtain ⟨rest, rfl⟩ : ∃ rest, cs = '/' :: rest := by
      simpa [isAbsolute, List.head?_eq_some_iff] using habs
    refine ⟨['/'], rest, rfl, rfl, fun body _ => ?_⟩
    simp [components_eq, leading, isAbsolute, innerOf_slash]
  by_cases hhere : startsHere ⟨cs⟩ = true
  · have hhead : headLength ⟨cs⟩ = 1 := by simp [headLength, hhere]
    obtain rfl | ⟨rest, rfl⟩ : cs = ['.'] ∨ ∃ rest, cs = '.' :: '/' :: rest := by
      unfold startsHere at hhere
      split at hhere
      · rename_i h; exact .inl h
      · rename_i rest h; exact .inr ⟨rest, h⟩
      · simp at hhere
    · refine ⟨['.'], [], rfl, hhead, fun body hcut => ?_⟩
      obtain rfl | rfl | ⟨rest, h⟩ := hcut
      · rfl
      · rfl
      · simp at h
    · refine ⟨['.'], '/' :: rest, rfl, hhead, fun body hcut => ?_⟩
      obtain rfl | ⟨r, rfl⟩ := hcut.of_slash
      · rfl
      · have hdot : innerOf ('.' :: '/' :: r) = innerOf ('/' :: r) := by
          rw [innerOf_slash]
          exact innerOf_append_slash ['.'] r
        exact congrArg (.current :: ·) hdot
  · have hnone : leading ⟨cs⟩ = [] := by simp [leading, hhere, habs]
    refine ⟨[], cs, rfl, by simp [headLength, hhere, habs], fun body hcut => ?_⟩
    rw [components_eq, List.nil_append, hnone, leading_cutOf hcut hnone]

/-- The parent of a path leads through all components but the last. -/
theorem components_parent? {p q : FilePath} (h : p.parent? = some q) :
    q.components = p.components.dropLast := by
  obtain ⟨head, tail, hp, hhead, hcomp⟩ := p.exists_head
  obtain ⟨body, htrim, hcut, hinner, hlast⟩ := trimPieces_spec head p.chars.length tail
  have hall : p.components = p.leading ++ innerOf body := by
    rw [hinner, ← hcomp tail (.inl rfl), ← hp]
  rw [← hhead, ← hp] at htrim
  simp only [parent?, trimmed, htrim] at h
  -- nothing is left but the head: there is no parent, or the path is a leading dot
  by_cases hbody : body = []
  · subst hbody
    rw [if_pos (by rw [hhead, List.append_nil])] at h
    split_ifs at h with hhere
    obtain rfl := Option.some.inj h
    simp only [hall, leading, isAbsolute_of_startsHere hhere, hhere]
    rfl
  · have hlt : ¬(head ++ body).length ≤ p.headLength := by
      rw [List.length_append, hhead]
      have := List.length_pos_iff.2 hbody
      omega
    obtain ⟨hle, -, hcut', hinner'⟩ := innerOf_lastPiece body
    rw [if_neg hlt, hhead, List.drop_left, take_head_append hle] at h
    obtain ⟨front, hfront, hcut'', hinner'', -⟩ := trimPieces_spec head
      (head ++ body.take (body.length - (lastPiece body).2)).length
      (body.take (body.length - (lastPiece body).2))
    rw [hfront] at h
    obtain rfl := Option.some.inj h
    obtain ⟨c, hc⟩ := Option.isSome_iff_exists.1 (hlast (by rw [hp]; simp) hbody)
    rw [hcomp front (hcut.trans (hcut'.trans hcut'')), hall, hinner'', hinner', hc]
    simp [← List.append_assoc]

end FilePath

end ServiceScaffold
