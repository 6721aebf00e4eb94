import ServiceScaffold.Proofs.Text.Splitting

/-!
# What occurs in a text

A text that is cut, trimmed or taken apart into lines holds nothing that the whole does not hold,
and pieces with a separator between them hold nothing new but what the separator stands in.

* `isInfix_append_cons` : an occurrence without the separator stands on one side of it;
* `cut?_eq_some` and `cut?_eq_none` : the search finds an occurrence if there is one;
* `cutLast?_eq_some_iff` : the search from the end finds the last occurrence;
* `isInfix_of_mem_lines` : the lines of a text stand in it.
-/

namespace ServiceScaffold.Text

variable {w a b cs : List Char} {c : Char}

/-- An occurrence of a text without the separator stands on one side of it. -/
theorem isInfix_append_cons (hc : c ∉ w) (h : w <:+: a ++ c :: b) : w <:+: a ∨ w <:+: b := by
  obtain ⟨s, t, h⟩ := h
  obtain ⟨rest, rfl, -⟩ | ⟨rest, hfront, hback⟩ := List.append_eq_append_iff.1 h
  · exact .inl ⟨s, rest, rfl⟩
  rcases rest with _ | ⟨d, rest⟩
  · exact .inl ⟨s, [], by simpa using hfront⟩
  obtain ⟨rfl, rfl⟩ := List.cons.inj hback
  -- the separator stands before the occurrence, or in it
  obtain ⟨front, -, rfl⟩ | ⟨front, rfl, hrest⟩ := List.append_eq_append_iff.1 hfront
  · exact absurd (by simp) hc
  · rcases front with _ | ⟨d, front⟩
    · obtain rfl : c :: rest = w := hrest
      exact absurd List.mem_cons_self hc
    · obtain ⟨rfl, rfl⟩ := List.cons.inj hrest
      exact .inr ⟨front, t, rfl⟩

/-- What occurs in joined pieces, without the separator, occurs in one of them. -/
theorem exists_isInfix_of_joinWith {pieces : List (List Char)} (hw : w ≠ []) (hc : c ∉ w)
    (h : w <:+: joinWith [c] pieces) : ∃ piece ∈ pieces, w <:+: piece := by
  fun_induction joinWith [c] pieces with
  | case1 => exact absurd (List.infix_nil.1 h) hw
  | case2 piece => exact ⟨piece, List.mem_cons_self, h⟩
  | case3 piece pieces hmore ih =>
    rw [List.append_assoc] at h
    obtain hfirst | hrest := isInfix_append_cons hc h
    · exact ⟨piece, List.mem_cons_self, hfirst⟩
    · obtain ⟨other, hother, hin⟩ := ih hrest
      exact ⟨other, List.mem_cons_of_mem _ hother, hin⟩

/-! ### Cutting -/

theorem cut?_eq_some {front rest : List Char} (h : cut? w cs = some (front, rest)) :
    cs = front ++ w ++ rest := by
  induction cs generalizing front with
  | nil =>
    rw [cut?] at h
    split_ifs at h with hw
    obtain ⟨rfl, rfl⟩ := Prod.mk.inj (Option.some.inj h)
    simpa using hw
  | cons c cs ih =>
    rw [cut?] at h
    split at h
    · rename_i more hprefix
      obtain ⟨rfl, rfl⟩ := Prod.mk.inj (Option.some.inj h)
      exact (List.isPrefixOf?_eq_some_iff_append_eq.1 hprefix).symm
    · obtain ⟨⟨front', rest'⟩, hcut, heq⟩ := Option.map_eq_some_iff.1 h
      obtain ⟨rfl, rfl⟩ := Prod.mk.inj heq
      rw [ih hcut]
      rfl

theorem cut?_eq_none (h : cut? w cs = none) : ¬w <:+: cs := by
  induction cs with
  | nil =>
    rw [cut?] at h
    split_ifs at h with hw
    simpa using hw
  | cons c cs ih =>
    rw [cut?] at h
    split at h
    · cases h
    · rename_i hprefix
      rw [List.infix_cons_iff, not_or]
      refine ⟨fun hin => ?_, ih (Option.map_eq_none_iff.1 h)⟩
      obtain ⟨rest, hrest⟩ := hin
      rw [List.isPrefixOf?_eq_some_iff_append_eq.2 hrest] at hprefix
      cases hprefix

/-- What stands before the first occurrence, with the occurrence itself, has no other. -/
theorem not_isInfix_of_cut? {front rest : List Char} (hw : w ≠ [])
    (h : cut? w cs = some (front, rest)) : ¬w <:+: (front ++ w).dropLast := by
  induction cs generalizing front with
  | nil => simp [cut?, hw] at h
  | cons c cs ih =>
    rw [cut?] at h
    split at h
    · obtain ⟨rfl, rfl⟩ := Prod.mk.inj (Option.some.inj h)
      intro hin
      have hlength := hin.length_le
      have hpos := List.length_pos_iff.2 hw
      rw [List.nil_append, List.length_dropLast] at hlength
      omega
    · rename_i hprefix
      obtain ⟨⟨front', rest'⟩, hcut, heq⟩ := Option.map_eq_some_iff.1 h
      obtain ⟨rfl, rfl⟩ := Prod.mk.inj heq
      rw [List.cons_append, List.dropLast_cons_of_ne_nil (by simp [hw]), List.infix_cons_iff,
        not_or]
      refine ⟨fun hin => ?_, ih hcut⟩
      -- an occurrence at the start would have been found first
      have hstart : w <+: c :: cs := by
        refine hin.trans (List.cons_prefix_cons.2 ⟨rfl, ?_⟩)
        rw [cut?_eq_some hcut]
        exact (List.dropLast_prefix _).trans (List.prefix_append _ _)
      obtain ⟨more, hmore⟩ := hstart
      rw [List.isPrefixOf?_eq_some_iff_append_eq.2 hmore] at hprefix
      cases hprefix

/-- The search finds the first occurrence. -/
theorem cut?_append {front rest : List Char} (hfirst : ¬w <:+: (front ++ w).dropLast) :
    cut? w (front ++ w ++ rest) = some (front, rest) := by
  have hw : w ≠ [] := by
    rintro rfl
    exact hfirst List.nil_infix
  induction front with
  | nil =>
    obtain ⟨c, w, rfl⟩ := List.exists_cons_of_ne_nil hw
    have hprefix : (c :: w).isPrefixOf? (c :: (w ++ rest)) = some rest :=
      List.isPrefixOf?_eq_some_iff_append_eq.2 rfl
    rw [List.nil_append, List.cons_append, cut?, hprefix]
  | cons x front ih =>
    rw [List.cons_append, List.dropLast_cons_of_ne_nil (by simp [hw]), List.infix_cons_iff,
      not_or] at hfirst
    have hnone : w.isPrefixOf? (x :: (front ++ w ++ rest)) = none := by
      by_contra hsome
      obtain ⟨more, hmore⟩ := Option.ne_none_iff_exists'.1 hsome
      have hw' : w <+: x :: (front ++ w ++ rest) :=
        ⟨more, List.isPrefixOf?_eq_some_iff_append_eq.1 hmore⟩
      have hfront : x :: (front ++ w).dropLast <+: x :: (front ++ w ++ rest) :=
        List.cons_prefix_cons.2
          ⟨rfl, (List.dropLast_prefix _).trans (List.prefix_append _ _)⟩
      refine hfirst.1 (List.prefix_of_prefix_length_le hw' hfront ?_)
      have hpos := List.length_pos_iff.2 hw
      rw [List.length_cons, List.length_dropLast, List.length_append]
      omega
    rw [List.cons_append, List.cons_append, cut?, hnone, ih hfirst.2]
    rfl

/-- A text is cut at the first occurrence of a character. -/
theorem cut?_append_cons (hc : c ∉ a) : cut? [c] (a ++ c :: b) = some (a, b) := by
  induction a with
  | nil => simp [cut?, List.isPrefixOf?]
  | cons x a ih =>
    rw [List.mem_cons, not_or] at hc
    rw [List.cons_append, cut?, ih hc.2]
    simp [List.isPrefixOf?, hc.1]

/-- A text is cut at the last occurrence of a character. -/
theorem cutLast?_append_cons (hc : c ∉ b) : cutLast? [c] (a ++ c :: b) = some (a, b) := by
  have hreverse : (a ++ c :: b).reverse = b.reverse ++ c :: a.reverse := by simp
  rw [cutLast?, hreverse, List.reverse_singleton, cut?_append_cons (by simpa using hc)]
  simp

theorem contains_iff : contains w cs = true ↔ w <:+: cs := by
  unfold contains
  rcases h : cut? w cs with _ | ⟨front, rest⟩
  · simpa using cut?_eq_none h
  · simpa using ⟨front, rest, (cut?_eq_some h).symm⟩

theorem cutLast?_eq_some {front rest : List Char} (h : cutLast? w cs = some (front, rest)) :
    cs = front ++ w ++ rest := by
  obtain ⟨⟨back, head⟩, hcut, heq⟩ := Option.map_eq_some_iff.1 h
  obtain ⟨rfl, rfl⟩ := Prod.mk.inj heq
  have htext := congrArg List.reverse (cut?_eq_some hcut)
  simpa using htext

/-- A text is cut at the last occurrence: no other one starts behind its start. -/
theorem cutLast?_eq_some_iff {front rest : List Char} (hw : w ≠ []) :
    cutLast? w cs = some (front, rest) ↔ cs = front ++ w ++ rest ∧ ¬w <:+: (w ++ rest).tail := by
  have hreverse : w.reverse <:+: (rest.reverse ++ w.reverse).dropLast ↔ w <:+: (w ++ rest).tail := by
    rw [← List.reverse_append, List.dropLast_reverse, List.reverse_infix]
  refine ⟨fun h => ⟨cutLast?_eq_some h, ?_⟩, ?_⟩
  · obtain ⟨⟨back, head⟩, hcut, heq⟩ := Option.map_eq_some_iff.1 h
    obtain ⟨rfl, rfl⟩ := Prod.mk.inj heq
    rw [← hreverse, List.reverse_reverse]
    exact not_isInfix_of_cut? (by simpa using hw) hcut
  · rintro ⟨rfl, hlast⟩
    have htext : (front ++ w ++ rest).reverse = rest.reverse ++ w.reverse ++ front.reverse := by
      simp
    rw [cutLast?, htext, cut?_append (mt hreverse.1 hlast)]
    simp

/-! ### Trimming and lines -/

/-- Nothing is dropped from an end before a character that stays. -/
theorem dropEndWhile_append_cons {p : Char → Bool} {c : Char} (hc : p c = false)
    (front back : List Char) :
    dropEndWhile p (front ++ c :: back) = front ++ c :: dropEndWhile p back := by
  have hreverse : (front ++ c :: back).reverse = back.reverse ++ c :: front.reverse := by simp
  rw [dropEndWhile, dropEndWhile, hreverse, List.dropWhile_append]
  split_ifs with hempty
  · rw [List.isEmpty_iff.1 hempty, List.dropWhile_cons_of_neg (by simp [hc])]
    simp
  · simp

theorem trimEnd_append (h : trimEnd b ≠ []) : trimEnd (a ++ b) = a ++ trimEnd b := by
  have hne : b.reverse.dropWhile isBlank ≠ [] := fun hnil => h (by simp [trimEnd, dropEndWhile, hnil])
  simp [trimEnd, dropEndWhile, List.dropWhile_append, hne]

theorem trimEnd_append_of_blank (h : ∀ c ∈ b, isBlank c = true) : trimEnd (a ++ b) = trimEnd a := by
  have hback : ∀ c ∈ b.reverse, isBlank c = true := fun c hc => h c (List.mem_reverse.1 hc)
  rw [trimEnd, trimEnd, dropEndWhile, dropEndWhile, List.reverse_append,
    List.dropWhile_append_of_pos hback]

theorem trimStart_suffix (cs : List Char) : trimStart cs <:+ cs := List.dropWhile_suffix _

theorem isPrefix_trimEnd (cs : List Char) : trimEnd cs <+: cs := by
  rw [trimEnd, dropEndWhile, ← List.reverse_suffix, List.reverse_reverse]
  exact List.dropWhile_suffix _

theorem trim_isInfix (cs : List Char) : trim cs <:+: cs :=
  (isPrefix_trimEnd _).isInfix.trans (trimStart_suffix cs).isInfix

/-- A text with no blanks at its ends stays as it is. -/
theorem trim_eq_self {cs : List Char} {first last : Char} (hfirst : cs.head? = some first)
    (hlast : cs.getLast? = some last) (hfirst' : isBlank first = false)
    (hlast' : isBlank last = false) : trim cs = cs := by
  have hstart : trimStart cs = cs := by
    obtain ⟨rest, rfl⟩ := List.head?_eq_some_iff.1 hfirst
    exact List.dropWhile_cons_of_neg (by simp [hfirst'])
  obtain ⟨front, rfl⟩ := List.getLast?_eq_some_iff.1 hlast
  rw [trim, hstart]
  simp [trimEnd, dropEndWhile, hlast']

/-- A text that trimming leaves as it is has no blanks at either end. -/
theorem ends_of_trim_eq_self (h : trim cs = cs) : trimStart cs = cs ∧ trimEnd cs = cs := by
  have hstart : trimStart cs = cs := by
    refine (trimStart_suffix cs).eq_of_length_le ?_
    have hlength := (isPrefix_trimEnd (trimStart cs)).length_le
    rwa [← trim, h] at hlength
  refine ⟨hstart, ?_⟩
  rwa [trim, hstart] at h

/-- Trimming leaves the end of a text as it is if the last character is no blank, and only then. -/
theorem trimEnd_eq_self_iff : trimEnd cs = cs ↔ ∀ c ∈ cs.getLast?, isBlank c = false := by
  rcases cs.eq_nil_or_concat' with rfl | ⟨front, last, rfl⟩
  · simp [trimEnd, dropEndWhile]
  rw [List.getLast?_concat]
  constructor
  · rintro h c hc
    obtain rfl := Option.some.inj hc
    by_contra hblank
    have hshort := trimEnd_append_of_blank (a := front) (b := [last]) (by simpa using hblank)
    have hlength := (isPrefix_trimEnd front).length_le
    rw [← hshort, h, List.length_append, List.length_singleton] at hlength
    omega
  · intro h
    rw [trimEnd, dropEndWhile_append_cons (h last rfl)]
    rfl

theorem isPrefix_dropReturn (line : List Char) : dropReturn line <+: line := by
  unfold dropReturn stripBack?
  rcases h : ['\r'].isSuffixOf? line with _ | front
  · exact List.prefix_rfl
  · exact ⟨_, List.isSuffixOf?_eq_some_iff_append_eq.1 h⟩

/-- The lines of a text stand in it. -/
theorem isInfix_of_mem_lines {line : List Char} (h : line ∈ lines cs) : line <:+: cs := by
  have hpiece : ∀ piece ∈ (splitOn (· == '\n') cs).dropLast, dropReturn piece <:+: cs :=
    fun piece hmem => (isPrefix_dropReturn piece).isInfix.trans
      (isInfix_of_mem_splitOn ((List.dropLast_sublist _).subset hmem))
  unfold lines at h
  dsimp only at h
  split at h
  · obtain ⟨piece, hmem, rfl⟩ := List.mem_map.1 h
    exact hpiece piece hmem
  · rename_i last hlast
    obtain hfront | hend := List.mem_append.1 h
    · obtain ⟨piece, hmem, rfl⟩ := List.mem_map.1 hfront
      exact hpiece piece hmem
    · obtain rfl := List.mem_singleton.1 hend
      exact isInfix_of_mem_splitOn (List.mem_of_getLast? hlast)
  · cases h

end ServiceScaffold.Text
