import ServiceScaffold.Proofs.Results
import ServiceScaffold.Proofs.Schema.DocComment
import ServiceScaffold.Schema.Extraction

/-!
# The block before a declaration

Where no comment stands beside a declaration in the syntax tree, its documentation is the block that
the text before it ends with.  The block starts at the last opener, and no closer may stand in it but
the one at its end.  The search for closers starts behind the opener, though, and misses the one that
shares the star of the opener.

* `DocComment.trailingBlock?_eq_some_iff` : which block is found, and when;
* `DocComment.IsSingle` : a text is one comment, which is closed at its end and not before;
* `DocComment.trailingBlock?_isSingle_iff` : **the block is one comment unless it starts with the
  shortest comment**, which it then goes on behind;
* `DocComment.trailingBlock?_spans` : a block that spans two comments.
-/

namespace ServiceScaffold

open Text

namespace DocComment

variable {before b inner : List Char}

/-! ### Which block is found -/

/-- **The block that is found** starts at the last opener and encloses a body without a closer. -/
theorem trailingBlock?_eq_some_iff : trailingBlock? before = some b ↔
    b <:+ trimEnd before ∧ (∃ inner, Encloses b inner) ∧ ¬opener <:+: b.tail := by
  constructor
  · intro h
    obtain ⟨-, hencloses⟩ := encloses_of_trailingBlock? h
    unfold trailingBlock? at h
    dsimp only at h
    split_ifs at h
    split at h
    · cases h
    · rename_i front rest hcut
      split_ifs at h
      obtain rfl := Option.some.inj h
      obtain ⟨htext, hlast⟩ := (cutLast?_eq_some_iff (by decide)).1 hcut
      exact ⟨⟨front, by rw [htext, List.append_assoc]⟩, hencloses, hlast⟩
  · rintro ⟨⟨front, htext⟩, ⟨inner, rfl, hinner⟩, hlast⟩
    have hcloses : closer.isSuffixOf (trimEnd before) = true := by
      rw [List.isSuffixOf_iff_suffix, ← htext]
      exact (List.suffix_append _ closer).trans (List.suffix_append front _)
    have hcut : cutLast? opener (trimEnd before) = some (front, inner ++ closer) := by
      refine (cutLast?_eq_some_iff (by decide)).2 ⟨?_, by rwa [← List.append_assoc]⟩
      rw [← htext]
      simp
    have hlong : ¬(opener ++ (inner ++ closer)).length < 5 := by
      simp [opener, closer]
    have htake : (inner ++ closer).take ((inner ++ closer).length - 2) = inner := by
      simp [closer]
    have hopen : ¬contains closer inner = true := mt contains_iff.1 hinner
    unfold trailingBlock?
    simp only [hcloses, Bool.not_true, Bool.false_eq_true, if_false, hcut, if_neg hlong, htake,
      if_neg hopen, List.append_assoc]

/-! ### Single comments -/

/-- The closer stands at an index of the text. -/
def ClosesAt (b : List Char) (i : Nat) : Prop := closer <+: b.drop i

/-- The text is one comment: behind its first two characters, the closer stands at its end and not
before. -/
def IsSingle (b : List Char) : Prop :=
  ∃ i, 2 ≤ i ∧ i + 2 = b.length ∧ ClosesAt b i ∧ ∀ j, 2 ≤ j → j < i → ¬ClosesAt b j

/-- Behind a body without a closer, the closer starts where the body ends. -/
theorem closer_isPrefix_drop_iff (h : Unclosed inner) (j : Nat) :
    closer <+: (inner ++ closer).drop j ↔ j = inner.length := by
  refine ⟨fun hcloser => ?_, ?_⟩
  · have hle : j ≤ inner.length := by
      have hlength := hcloser.length_le
      simp only [List.length_drop, List.length_append] at hlength
      have htwo : closer.length = 2 := rfl
      omega
    by_contra hne
    rw [List.drop_append_of_le_length hle] at hcloser
    obtain ⟨c, rest, hrest⟩ := List.exists_cons_of_ne_nil
      (List.ne_nil_of_length_pos (l := inner.drop j) (by rw [List.length_drop]; omega))
    rw [hrest] at hcloser
    -- the two characters of the closer both stand in the body
    obtain ⟨rfl, hslash⟩ := List.cons_prefix_cons.1 hcloser
    rcases rest with _ | ⟨d, rest⟩
    · exact absurd hslash (by decide)
    · obtain ⟨rfl, -⟩ := List.cons_prefix_cons.1 hslash
      have hdrop : closer <+: inner.drop j := hrest ▸ ⟨rest, rfl⟩
      exact h (hdrop.isInfix.trans (List.drop_suffix j inner).isInfix)
  · rintro rfl
    rw [List.drop_left]

/-- Behind the first two characters of a comment, its closer stands at the end, and where the star
of the opener has a slash behind it. -/
theorem Encloses.closesAt_iff (h : Encloses b inner) (j : Nat) :
    ClosesAt b (j + 2) ↔ j = inner.length + 1 ∨ j = 0 ∧ ['/'] <+: inner := by
  obtain ⟨rfl, hinner⟩ := h
  rcases j with _ | j
  · have hstar : ClosesAt (opener ++ inner ++ closer) 2 ↔ ['/'] <+: inner ++ closer :=
      List.cons_prefix_cons.trans (and_iff_right rfl)
    rw [Nat.zero_add, hstar]
    cases inner <;> simp [closer, List.cons_prefix_cons]
  · have hdrop : ClosesAt (opener ++ inner ++ closer) (j + 1 + 2) ↔
        closer <+: (inner ++ closer).drop j := Iff.rfl
    rw [hdrop, closer_isPrefix_drop_iff hinner]
    simp

theorem Encloses.isSingle_iff (h : Encloses b inner) : IsSingle b ↔ ¬['/'] <+: inner := by
  have hlength : b.length = inner.length + 5 := by
    rw [h.text]
    simp [opener, closer]
  constructor
  · rintro ⟨i, hi, hb, -, hfirst⟩ hslash
    exact hfirst 2 le_rfl (by omega) ((h.closesAt_iff 0).2 (.inr ⟨rfl, hslash⟩))
  · intro hslash
    refine ⟨inner.length + 3, by omega, by omega, (h.closesAt_iff _).2 (.inl rfl),
      fun j hj hlt hcloses => ?_⟩
    obtain ⟨j, rfl⟩ := Nat.exists_eq_add_of_le' hj
    obtain hend | ⟨-, hstart⟩ := (h.closesAt_iff j).1 hcloses
    · omega
    · exact hslash hstart

theorem Encloses.shortest_isPrefix_iff (h : Encloses b inner) :
    shortest <+: b ↔ ['/'] <+: inner := by
  obtain ⟨rfl, -⟩ := h
  have hslash : shortest <+: opener ++ inner ++ closer ↔ ['/'] <+: inner ++ closer := by
    simp [shortest, opener, List.cons_prefix_cons]
  rw [hslash]
  cases inner <;> simp [closer, List.cons_prefix_cons]

/-- **The block before a node**, in every text and wherever the node starts: what is found starts at
the last opener of a documentation comment, ends the text and encloses a body without a closer, and
everything of this kind is found.  It is one comment unless it starts with the shortest comment. -/
theorem trailingBlock?_isSingle_iff (source : List Char) (start : Nat) (b : List Char) :
    (trailingBlock? (takeBytes start source) = some b ↔
      b <:+ trimEnd (takeBytes start source) ∧ (∃ inner, Encloses b inner) ∧
        ¬opener <:+: b.tail) ∧
    (trailingBlock? (takeBytes start source) = some b →
      opener <+: b ∧ b <:+ trimEnd (takeBytes start source) ∧
        (IsSingle b ↔ ¬shortest <+: b)) := by
  refine ⟨trailingBlock?_eq_some_iff, fun h => ?_⟩
  obtain ⟨hends, ⟨inner, hencloses⟩, -⟩ := trailingBlock?_eq_some_iff.1 h
  refine ⟨?_, hends, ?_⟩
  · rw [hencloses.text, List.append_assoc]
    exact List.prefix_append _ _
  · rw [hencloses.isSingle_iff, hencloses.shortest_isPrefix_iff]

/-- A block whose opener and closer touch, behind the shortest comment. -/
theorem trailingBlock?_isSingle_touching :
    trailingBlock? (takeBytes 12 "/**/ /***/  interface".toList) = some "/***/".toList ∧
      IsSingle "/***/".toList := by
  have hfound : trailingBlock? (takeBytes 12 "/**/ /***/  interface".toList) =
      some "/***/".toList := by
    decide +kernel
  have h := trailingBlock?_isSingle_iff "/**/ /***/  interface".toList 12 "/***/".toList
  exact ⟨hfound, (h.2 hfound).2.2.2 (by decide)⟩

/-- An interface behind the shortest comment and a plain one, which both stand in the type before. -/
def spanningSource : String :=
  "export type T = string /**/ /* d */\nexport interface A \x7b\x7d"

/-- The block before the interface spans two comments, and becomes its description. -/
theorem trailingBlock?_spans :
    (∃ b, trailingBlock? (takeBytes 36 spanningSource.toList) = some b ∧ ClosesAt b 2 ∧
      ¬IsSingle b) ∧
    ∃ x, Schema.ofSource spanningSource "note.ts" = .ok x ∧
      (x.schema.interface? "A").bind (·.description) = some "/ /* d" := by
  refine ⟨⟨"/**/ /* d */".toList, by decide +kernel, ?_, ?_⟩, ?_⟩
  · exact ⟨" /* d */".toList, by decide⟩
  · rintro ⟨i, hi, hlength, -, hfirst⟩
    have hend : i = 10 := by
      have htext : "/**/ /* d */".toList.length = 12 := by decide
      omega
    exact hfirst 2 le_rfl (by omega) ⟨" /* d */".toList, by decide⟩
  · have hkernel : (Schema.ofSource spanningSource "note.ts").toOption.any (fun x =>
        (x.schema.interface? "A").bind (·.description) == some "/ /* d") = true := by
      decide +kernel
    obtain ⟨x, hx, hdescription⟩ := exists_ok_of_any hkernel
    exact ⟨x, hx, beq_iff_eq.1 hdescription⟩

end DocComment

end ServiceScaffold
