import ServiceScaffold.Proofs.Syntax.Tokens
import ServiceScaffold.Proofs.Text.Occurrence
import ServiceScaffold.Schema.DocComment

/-!
# What a documentation comment can say

Reading a documentation comment takes lines of the comment apart and joins them again.  The closer
of the comment has no blank in it, so that no text that is read holds one, unless the body of the
comment does.  This is so for the shortest comment only, `/**/`, whose opener and closer share a
star, so that it is taken as it stands.

* `DocComment.Encloses` : a comment around a body without a closer;
* `DocComment.unclosed_parse` : what is read from a body without a closer has none;
* `DocComment.encloses_of_comment?` : a comment encloses a body, or it is `/**/`;
* `DocComment.encloses_of_trailingBlock?` : the block that a text ends with encloses a body.
-/

namespace ServiceScaffold

open Text

namespace DocComment

variable {raw inner cs cs' : List Char}

/-- No closer stands in the text. -/
def Unclosed (cs : List Char) : Prop := ¬closer <:+: cs

/-- The shortest comment with the opener of a documentation comment. -/
def shortest : List Char := "/**/".toList

/-- The texts that a documentation comment gives: its description and those of its tags. -/
def texts (doc : DocComment) : List (List Char) := doc.description.toList ++ doc.tags.map (·.text)

/-! ### Reading -/

theorem Unclosed.of_isInfix (h : Unclosed cs) (hin : cs' <:+: cs) : Unclosed cs' :=
  fun hcloser => h (hcloser.trans hin)

theorem unclosed_nil : Unclosed [] := by
  unfold Unclosed
  decide

/-- Blanks between texts without a closer make none. -/
theorem Unclosed.append_cons {c : Char} (hc : c ∉ closer) (h : Unclosed cs) (h' : Unclosed cs') :
    Unclosed (cs ++ c :: cs') := fun hcloser => by
  obtain hfront | hback := isInfix_append_cons hc hcloser
  · exact h hfront
  · exact h' hback

theorem unclosed_joinWith {c : Char} {pieces : List (List Char)} (hc : c ∉ closer)
    (h : ∀ piece ∈ pieces, Unclosed piece) : Unclosed (joinWith [c] pieces) := fun hcloser => by
  obtain ⟨piece, hpiece, hin⟩ := exists_isInfix_of_joinWith (by decide) hc hcloser
  exact h piece hpiece hin

theorem undecorated_suffix (line : List Char) : undecorated line <:+ line := by
  unfold undecorated
  dsimp only
  split
  · rename_i c rest heq
    -- what is left after the star, if there is one
    have hstar : c :: rest <:+ line := by
      split at heq
      · rename_i more hstart
        rw [← heq]
        exact (hstart ▸ List.suffix_cons '*' more).trans (trimStart_suffix line)
      · rw [← heq]
        exact trimStart_suffix line
    split_ifs
    · exact (List.suffix_cons c rest).trans hstar
    · exact hstar
  · exact List.nil_suffix

theorem unclosed_tagLine {line : List Char} {tag : DocTag} (h : Unclosed line)
    (htag : tagLine? line = some tag) : Unclosed tag.text := by
  unfold tagLine? at htag
  split at htag
  · rename_i c rest
    split_ifs at htag
    obtain rfl := Option.some.inj htag
    have hrest : rest <:+ '@' :: c :: rest := ⟨['@', c], rfl⟩
    exact h.of_isInfix ((trim_isInfix _).trans
      ((List.dropWhile_suffix isTagChar).isInfix.trans hrest.isInfix))
  · cases htag

theorem unclosed_extend {tag : DocTag} {line : List Char} (h : Unclosed tag.text)
    (hline : Unclosed line) : Unclosed (tag.extend line).text := by
  have htrim : Unclosed (trim line) := hline.of_isInfix (trim_isInfix line)
  unfold DocTag.extend
  split_ifs
  · exact h
  · exact htrim
  · exact h.append_cons (by decide) htrim

/-- No closer stands in what has been read so far. -/
structure Reading.IsUnclosed (r : Reading) : Prop where
  description : ∀ line ∈ r.description, Unclosed line
  tags : ∀ tag ∈ r.tags, Unclosed tag.text

theorem Reading.IsUnclosed.add {r : Reading} {line : List Char} (h : r.IsUnclosed)
    (hline : Unclosed line) : (r.add line).IsUnclosed := by
  unfold Reading.add
  split
  · rename_i tag htag
    refine ⟨h.description, fun t ht => ?_⟩
    obtain rfl | hold := List.mem_cons.1 ht
    · exact unclosed_tagLine hline htag
    · exact h.tags t hold
  · split
    · rename_i latest earlier htags
      refine ⟨h.description, fun t ht => ?_⟩
      obtain rfl | hold := List.mem_cons.1 ht
      · exact unclosed_extend (h.tags latest (by simp [htags])) hline
      · exact h.tags t (by simp [htags, hold])
    · refine ⟨fun l hl => ?_, h.tags⟩
      obtain hold | hnew := List.mem_append.1 hl
      · exact h.description l hold
      · obtain rfl := List.mem_singleton.1 hnew
        exact hline

theorem Reading.IsUnclosed.foldl {r : Reading} {ls : List (List Char)} (h : r.IsUnclosed)
    (hls : ∀ line ∈ ls, Unclosed line) :
    (ls.foldl (fun (r : Reading) line => r.add (trimEnd (undecorated line))) r).IsUnclosed := by
  induction ls generalizing r with
  | nil => exact h
  | cons line ls ih =>
    have hline : Unclosed (trimEnd (undecorated line)) :=
      (hls line List.mem_cons_self).of_isInfix
        ((isPrefix_trimEnd _).isInfix.trans (undecorated_suffix line).isInfix)
    exact ih (h.add hline) fun l hl => hls l (List.mem_cons_of_mem _ hl)

theorem mem_of_mem_trimLines {line : List Char} {ls : List (List Char)}
    (h : line ∈ trimLines ls) : line ∈ ls := by
  have hback := List.mem_reverse.1 ((List.dropWhile_suffix isBlankLine).subset h)
  exact List.mem_reverse.1 ((List.dropWhile_suffix isBlankLine).subset hback)

/-- **No closer is read from a body that holds none.** -/
theorem unclosed_parse (h : Unclosed (body raw)) : ∀ text ∈ (parse raw).texts, Unclosed text := by
  have hread : ((lines (body raw)).foldl (fun (r : Reading) line =>
      r.add (trimEnd (undecorated line))) {}).IsUnclosed :=
    Reading.IsUnclosed.foldl ⟨by simp, by simp⟩ fun line hline =>
      h.of_isInfix (isInfix_of_mem_lines hline)
  unfold texts parse
  generalize (lines (body raw)).foldl _ _ = r at hread
  intro text htext
  obtain hdescription | htag := List.mem_append.1 htext
  · dsimp only at hdescription
    split_ifs at hdescription
    · simp at hdescription
    · obtain rfl : text = joinWith ['\n'] (trimLines r.description) := by
        simpa using hdescription
      exact unclosed_joinWith (by decide) fun line hline =>
        hread.description line (mem_of_mem_trimLines hline)
  · obtain ⟨tag, hmem, rfl⟩ := List.mem_map.1 htag
    exact hread.tags tag (List.mem_reverse.1 hmem)

/-! ### Bodies -/

/-- The text is a comment around a body without a closer. -/
structure Encloses (raw inner : List Char) : Prop where
  text : raw = opener ++ inner ++ closer
  unclosed : Unclosed inner

/-- What stands in a block is its body. -/
theorem body_enclosed (inner : List Char) : body (opener ++ inner ++ closer) = inner := by
  have htrim : trim (opener ++ inner ++ closer) = opener ++ inner ++ closer := by
    simp [trim, trimStart, trimEnd, dropEndWhile, opener, closer, isBlank]
  have hfront : stripFront? opener (opener ++ inner ++ closer) = some (inner ++ closer) :=
    List.isPrefixOf?_eq_some_iff_append_eq.2 (by simp)
  have hback : stripBack? closer (inner ++ closer) = some inner :=
    List.isSuffixOf?_eq_some_iff_append_eq.2 rfl
  rw [body, htrim, hfront, Option.getD_some, hback, Option.getD_some]

theorem Encloses.body_eq (h : Encloses raw inner) : body raw = inner := by
  rw [h.text, body_enclosed]

theorem Encloses.unclosed_parse (h : Encloses raw inner) :
    ∀ text ∈ (parse raw).texts, Unclosed text :=
  DocComment.unclosed_parse (by rw [h.body_eq]; exact h.unclosed)

theorem parse_shortest : parse shortest = ⟨some shortest, []⟩ := by
  decide

theorem blockCommentTail?_eq_some {rest : List Char}
    (h : Syntax.blockCommentTail? cs = some rest) :
    ∃ front, cs = front ++ closer ++ rest ∧ Unclosed front := by
  fun_induction Syntax.blockCommentTail? cs with
  | case1 => cases h
  | case2 more =>
    obtain rfl := Option.some.inj h
    exact ⟨[], rfl, unclosed_nil⟩
  | case3 c cs hno ih =>
    obtain ⟨front, rfl, hfront⟩ := ih h
    refine ⟨c :: front, rfl, fun hcloser => ?_⟩
    obtain hstart | hlater := List.infix_cons_iff.1 hcloser
    -- a closer at the start would have ended the comment
    · obtain ⟨rfl, hslash⟩ := List.cons_prefix_cons.1 hstart
      obtain ⟨more, rfl⟩ := hslash
      exact hno _ rfl rfl
    · exact hfront hlater

/-- A comment with the opener of a documentation comment encloses a body, or it is the shortest
one. -/
theorem encloses_of_comment? (hopener : opener <+: raw) (h : Syntax.comment? raw = some []) :
    raw = shortest ∨ ∃ inner, Encloses raw inner := by
  obtain ⟨rest, rfl⟩ := hopener
  have htail : Syntax.blockCommentTail? ('*' :: rest) = some [] := h
  obtain ⟨front, htext, hfront⟩ := blockCommentTail?_eq_some htail
  rw [List.append_nil] at htext
  -- the star of the opener may be that of the closer
  rcases front with _ | ⟨c, front⟩
  · obtain ⟨-, rfl⟩ := List.cons.inj htext
    exact .inl rfl
  · obtain ⟨rfl, rfl⟩ := List.cons.inj htext
    exact .inr ⟨front, by simp, hfront.of_isInfix (List.suffix_cons _ front).isInfix⟩

/-- The block that a text ends with encloses a body. -/
theorem encloses_of_trailingBlock? {before : List Char} (h : trailingBlock? before = some raw) :
    raw <:+: before ∧ ∃ inner, Encloses raw inner := by
  unfold trailingBlock? at h
  dsimp only at h
  split_ifs at h with hcloses
  split at h
  · cases h
  · rename_i front rest hcut
    split_ifs at h with hlong hclosed
    obtain rfl := Option.some.inj h
    have htext := cutLast?_eq_some hcut
    have hblock : opener ++ rest <:+ trimEnd before := ⟨front, by rw [htext, List.append_assoc]⟩
    refine ⟨hblock.isInfix.trans (isPrefix_trimEnd before).isInfix, rest.take (rest.length - 2), ?_,
      fun hin => hclosed (contains_iff.2 hin)⟩
    -- the closer at the end stands behind the opener, as the block is long enough for both
    have hcloser : closer <:+ trimEnd before := by simpa using hcloses
    have hrest : rest <:+ trimEnd before := ⟨front ++ opener, htext.symm⟩
    have hlength : closer.length ≤ rest.length := by
      rw [List.length_append] at hlong
      have hopener : opener.length = 3 := rfl
      have hcloser : closer.length = 2 := rfl
      omega
    obtain ⟨inner, rfl⟩ := List.suffix_of_suffix_length_le hcloser hrest hlength
    have htwo : (inner ++ closer).length - 2 = inner.length := by simp [closer]
    rw [htwo, List.take_left', List.append_assoc]
    rfl

end DocComment

end ServiceScaffold
