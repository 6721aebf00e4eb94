import ServiceScaffold.Proofs.Schema.DocComment

/-!
# Documentation comments in their usual layout

A documentation comment is usually laid out with a star before each of its lines: those of the
description come first, then there is one for each tag.  Reading takes the decoration off again and
tells the tags from the description, and the line that the closer stands in adds nothing.  The block
is given as a whole, so that a closer within a line does no harm.

* `DocComment.layout` : the comment with a description and tags;
* `DocComment.lines_body_block` : its lines, decorated as they are;
* `DocComment.tagLine?_line` : the line of a tag is read as the tag;
* `DocComment.Reading.foldl_description`, `DocComment.Reading.foldl_tags` : what a run of lines adds,
  by induction on it;
* `DocComment.parse_layout` : **a comment that is laid out is read back**, its roles included.
-/

namespace ServiceScaffold

open Text

/-- A letter, a digit, an underscore or a hyphen. -/
def isPlainTagChar (c : Char) : Bool := c.isAlphanum || c == '_' || c == '-'

/-- A letter, and further letters, digits, underscores and hyphens. -/
def isPlainTagName : List Char → Bool
  | c :: cs => c.isAlpha && cs.all isPlainTagChar
  | [] => false

/-- The tag can stand on a line: it has a plain name, and its text is a single trimmed line. -/
structure DocTag.IsPlain (tag : DocTag) : Prop where
  name : isPlainTagName tag.name = true
  oneLine : '\n' ∉ tag.text
  trimmed : trim tag.text = tag.text

instance : DecidablePred DocTag.IsPlain := fun tag =>
  decidable_of_iff (isPlainTagName tag.name = true ∧ '\n' ∉ tag.text ∧ trim tag.text = tag.text)
    ⟨fun h => ⟨h.1, h.2.1, h.2.2⟩, fun h => ⟨h.name, h.oneLine, h.trimmed⟩⟩

/-- The line of a tag. -/
def DocTag.line (tag : DocTag) : List Char := '@' :: tag.name ++ ' ' :: tag.text

namespace DocComment

variable {line : List Char} {tag : DocTag} {description : List (List Char)} {tags : List DocTag}

/-- An at sign with a letter behind it. -/
def startsTag : List Char → Bool
  | '@' :: c :: _ => c.isAlpha
  | _ => false

/-- The line can stand in a description: it is one line without blanks at its end, and does not
start a tag. -/
structure IsPlainLine (line : List Char) : Prop where
  oneLine : '\n' ∉ line
  trimmed : trimEnd line = line
  noTag : startsTag line = false

instance : DecidablePred IsPlainLine := fun line =>
  decidable_of_iff ('\n' ∉ line ∧ trimEnd line = line ∧ startsTag line = false)
    ⟨fun h => ⟨h.1, h.2.1, h.2.2⟩, fun h => ⟨h.oneLine, h.trimmed, h.noTag⟩⟩

/-- A comment with a star before each line. -/
def block (texts : List (List Char)) : List Char :=
  opener ++ '\n' :: texts.flatMap (fun text => " * ".toList ++ text ++ ['\n']) ++ ' ' :: closer

/-- The comment with a description and tags. -/
def layout (description : List (List Char)) (tags : List DocTag) : List Char :=
  block (description ++ tags.map DocTag.line)

/-! ### Lines -/

/-- The lines of a comment with a star before each line. -/
theorem lines_body_block {texts : List (List Char)} (h : ∀ text ∈ texts, '\n' ∉ text)
    (hreturn : ∀ text ∈ texts, text.getLast? ≠ some '\r') :
    lines (body (block texts)) = [] :: texts.map (" * ".toList ++ ·) ++ [[' ']] := by
  have htext : block texts = opener ++
      (([] :: texts.map (" * ".toList ++ ·)).flatMap (· ++ ['\n']) ++ [' ']) ++ closer := by
    simp [block, List.flatMap_map]
  have hlines : ∀ line ∈ [] :: texts.map (" * ".toList ++ ·), '\n' ∉ line := by
    rw [List.forall_mem_cons, List.forall_mem_map]
    exact ⟨by decide, fun text htext => by simpa using h text htext⟩
  have hreturns : ∀ line ∈ [] :: texts.map (" * ".toList ++ ·), line.getLast? ≠ some '\r' := by
    rw [List.forall_mem_cons, List.forall_mem_map]
    refine ⟨by decide, fun text htext => ?_⟩
    rw [List.getLast?_append]
    rcases hlast : text.getLast? with _ | c
    · decide
    · simpa [hlast] using hreturn text htext
  rw [htext, body_enclosed, lines_flatMap hlines hreturns (by decide) (by decide)]

/-- The decoration of a line is taken off. -/
theorem undecorated_decorated (line : List Char) : undecorated (" * ".toList ++ line) = line := rfl

/-! ### Tags -/

/-- The characters of plain names are ASCII. -/
theorem toNat_of_isPlainTagChar {c : Char} (h : isPlainTagChar c = true) :
    32 < c.toNat ∧ c.toNat < 128 := by
  have hval : isPlainTagChar c = (((decide (c.val ≥ 'A'.val ∧ c.val ≤ 'Z'.val) ||
      (decide (c.val ≥ 'a'.val) && decide (c.val ≤ 'z'.val))) ||
      (decide (c.val ≥ '0'.val) && decide (c.val ≤ '9'.val))) || c == '_' || c == '-') := rfl
  simp only [hval, Bool.or_eq_true, Bool.and_eq_true, decide_eq_true_eq, beq_iff_eq, ge_iff_le,
    UInt32.le_iff_toNat_le] at h
  obtain (hranges | rfl) | rfl := h
  · have hcodes : (('A'.val.toNat = 65 ∧ 'Z'.val.toNat = 90) ∧ 'a'.val.toNat = 97 ∧
        'z'.val.toNat = 122) ∧ '0'.val.toNat = 48 ∧ '9'.val.toNat = 57 := by decide
    change 32 < c.val.toNat ∧ c.val.toNat < 128
    omega
  · decide
  · decide

theorem isTagChar_of_isPlainTagChar {c : Char} (h : isPlainTagChar c = true) :
    isTagChar c = true := by
  rw [isTagChar, Text.isWordChar, if_pos (toNat_of_isPlainTagChar h).2]
  exact h

theorem isBlank_of_isPlainTagChar {c : Char} (h : isPlainTagChar c = true) : isBlank c = false := by
  obtain ⟨hlow, hhigh⟩ := toNat_of_isPlainTagChar h
  simp only [isBlank, Bool.or_eq_false_iff, Bool.and_eq_false_iff, decide_eq_false_iff_not,
    beq_eq_false_iff_ne]
  omega

theorem isPlainTagChar_of_mem (h : isPlainTagName tag.name = true) {c : Char}
    (hc : c ∈ tag.name) : isPlainTagChar c = true := by
  rcases hname : tag.name with _ | ⟨first, others⟩ <;> rw [hname] at h hc
  · cases hc
  obtain ⟨hfirst, hothers⟩ := Bool.and_eq_true_iff.1 h
  obtain rfl | hin := List.mem_cons.1 hc
  · simp [isPlainTagChar, Char.isAlphanum, hfirst]
  · exact List.all_eq_true.1 hothers c hin

/-- Nothing in the mark of a tag and its name is blank. -/
theorem isBlank_of_mem_mark (h : tag.IsPlain) {c : Char} (hc : c ∈ '@' :: tag.name) :
    isBlank c = false := by
  obtain rfl | hin := List.mem_cons.1 hc
  · decide
  · exact isBlank_of_isPlainTagChar (isPlainTagChar_of_mem h.name hin)

/-- Behind the name and the blanks at its end, the line of a tag has the text of the tag. -/
theorem exists_trimEnd_line (h : tag.IsPlain) :
    ∃ rest, trimEnd tag.line = '@' :: tag.name ++ rest ∧ trim rest = tag.text ∧
      ∀ c ∈ rest.head?, isTagChar c = false := by
  obtain ⟨hstart, hend⟩ := ends_of_trim_eq_self h.trimmed
  by_cases htext : tag.text = []
  -- nothing but the name is left
  · refine ⟨[], ?_, by rw [htext]; rfl, by simp⟩
    have hname : trimEnd ('@' :: tag.name) = '@' :: tag.name :=
      trimEnd_eq_self_iff.2 fun c hc => isBlank_of_mem_mark h (List.mem_of_getLast? hc)
    have hspace : tag.line = '@' :: tag.name ++ [' '] := by rw [DocTag.line, htext]
    rw [hspace, trimEnd_append_of_blank (List.forall_mem_singleton.2 rfl), hname, List.append_nil]
  · refine ⟨' ' :: tag.text, ?_, ?_, by simpa using (by decide : isTagChar ' ' = false)⟩
    · have hspace : tag.line = ('@' :: tag.name ++ [' ']) ++ tag.text := by simp [DocTag.line]
      rw [hspace, trimEnd_append (by rwa [hend]), hend]
      simp
    · rw [trim, trimStart, List.dropWhile_cons_of_pos rfl, ← trimStart, ← trim, h.trimmed]

/-- The line of a tag is read as the tag. -/
theorem tagLine?_line (h : tag.IsPlain) : tagLine? (trimEnd tag.line) = some tag := by
  obtain ⟨rest, hline, htrim, hrest⟩ := exists_trimEnd_line h
  obtain ⟨name, text⟩ := tag
  rcases name with _ | ⟨c, cs⟩
  · exact absurd h.name Bool.false_ne_true
  obtain ⟨hc, hcs⟩ := Bool.and_eq_true_iff.1 h.name
  have hname : ∀ x ∈ cs, isTagChar x = true := fun x hx =>
    isTagChar_of_isPlainTagChar (List.all_eq_true.1 hcs x hx)
  have htake : rest.takeWhile isTagChar = [] := by
    cases rest with
    | nil => rfl
    | cons x rest => exact List.takeWhile_cons_of_neg (by simp [hrest x rfl])
  have hdrop : rest.dropWhile isTagChar = rest := by
    cases rest with
    | nil => rfl
    | cons x rest => exact List.dropWhile_cons_of_neg (by simp [hrest x rfl])
  rw [hline, List.cons_append, List.cons_append, tagLine?, if_pos hc,
    List.takeWhile_append_of_pos hname, List.dropWhile_append_of_pos hname, htake, hdrop, htrim,
    List.append_nil]

theorem tagLine?_of_startsTag (h : startsTag line = false) : tagLine? line = none := by
  unfold tagLine?
  split
  · rw [if_neg]
    simpa [startsTag] using h
  · rfl

/-! ### Readings -/

/-- Reads a decorated line of a comment. -/
def Reading.take (r : Reading) (line : List Char) : Reading := r.add (trimEnd (undecorated line))

/-- What is made of the lines that were read. -/
theorem parse_of_foldl {raw : List Char} {read : Reading}
    (h : (lines (body raw)).foldl Reading.take {} = read) :
    parse raw =
      ⟨if (trimLines read.description).isEmpty then none
        else some (joinWith ['\n'] (trimLines read.description)), read.tags.reverse⟩ := by
  rw [← h]
  rfl

theorem Reading.foldl_description (h : ∀ line ∈ description, IsPlainLine line) {r : Reading}
    (hr : r.tags = []) : (description.map (" * ".toList ++ ·)).foldl Reading.take r =
      { r with description := r.description ++ description } := by
  induction description generalizing r with
  | nil => simp
  | cons line description ih =>
    obtain ⟨hline, hothers⟩ := List.forall_mem_cons.1 h
    have htake : r.take (" * ".toList ++ line) =
        { r with description := r.description ++ [line] } := by
      rw [Reading.take, undecorated_decorated, hline.trimmed, Reading.add,
        tagLine?_of_startsTag hline.noTag, hr]
    have hnext : ({ r with description := r.description ++ [line] } : Reading).tags = [] := hr
    rw [List.map_cons, List.foldl_cons, htake, ih hothers hnext]
    simp

theorem Reading.foldl_tags (h : ∀ tag ∈ tags, tag.IsPlain) (r : Reading) :
    ((tags.map DocTag.line).map (" * ".toList ++ ·)).foldl Reading.take r =
      { r with tags := tags.reverse ++ r.tags } := by
  induction tags generalizing r with
  | nil => rfl
  | cons tag tags ih =>
    obtain ⟨htag, hothers⟩ := List.forall_mem_cons.1 h
    have htake : r.take (" * ".toList ++ tag.line) = { r with tags := tag :: r.tags } := by
      rw [Reading.take, undecorated_decorated, Reading.add, tagLine?_line htag]
    rw [List.map_cons, List.map_cons, List.foldl_cons, htake, ih hothers]
    simp

/-- The line of the closer adds no text: at most a blank line to a description. -/
theorem Reading.take_closing (r : Reading) : ∃ blank : List (List Char),
    (∀ line ∈ blank, isBlankLine line = true) ∧
      r.take [' '] = { r with description := r.description ++ blank } := by
  have hempty : trimEnd (undecorated [' ']) = [] := by decide
  have hnone : tagLine? [] = none := rfl
  rw [Reading.take, hempty, Reading.add, hnone]
  rcases htags : r.tags with _ | ⟨latest, earlier⟩
  · exact ⟨[[]], by decide, rfl⟩
  · refine ⟨[], by simp, ?_⟩
    simp [DocTag.extend, ← htags]

/-- Blank lines are dropped at both ends, up to lines that are not. -/
theorem trimLines_append {before after : List (List Char)}
    (hbefore : ∀ line ∈ before, isBlankLine line = true)
    (hafter : ∀ line ∈ after, isBlankLine line = true)
    (hfirst : ∀ line ∈ description.head?, isBlankLine line = false)
    (hlast : ∀ line ∈ description.getLast?, isBlankLine line = false) :
    trimLines (before ++ description ++ after) = description := by
  have hfront : (before ++ description).dropWhile isBlankLine = description := by
    rw [List.dropWhile_append_of_pos hbefore]
    cases description with
    | nil => rfl
    | cons line description => exact List.dropWhile_cons_of_neg (by simp [hfirst line rfl])
  have hblank : ∀ line ∈ after.reverse, isBlankLine line = true := fun line hline =>
    hafter line (List.mem_reverse.1 hline)
  rw [trimLines, List.reverse_append, List.dropWhile_append_of_pos hblank]
  rcases description.eq_nil_or_concat' with rfl | ⟨front, last, rfl⟩
  -- all lines are blank
  · have hall : ∀ line ∈ (before ++ []).reverse, isBlankLine line = true := fun line hline =>
      hbefore line (by simpa using hline)
    rw [List.dropWhile_eq_nil_iff.2 hall]
    rfl
  · have hstays : isBlankLine last = false := hlast last (by simp)
    have hback : (before ++ (front ++ [last])).reverse.dropWhile isBlankLine =
        (before ++ (front ++ [last])).reverse := by
      rw [← List.append_assoc, List.reverse_concat]
      exact List.dropWhile_cons_of_neg (by simp [hstays])
    rw [hback, List.reverse_reverse, hfront]

/-! ### Comments -/

/-- A carriage return at its end would be a blank there. -/
theorem getLast?_ne_return (h : trimEnd line = line) : line.getLast? ≠ some '\r' := fun hlast =>
  absurd (trimEnd_eq_self_iff.1 h _ hlast) (by decide)

theorem not_mem_line (h : tag.IsPlain) : '\n' ∉ tag.line := by
  intro hin
  obtain hmark | hspace := List.mem_append.1 hin
  · exact absurd (isBlank_of_mem_mark h hmark) (by decide)
  obtain hblank | htext := List.mem_cons.1 hspace
  · exact absurd hblank (by decide)
  · exact h.oneLine htext

theorem getLast?_line_ne_return (h : tag.IsPlain) : tag.line.getLast? ≠ some '\r' := by
  rw [DocTag.line, List.getLast?_append, List.getLast?_cons]
  rcases htext : tag.text.getLast? with _ | c
  · simp
  · simpa [htext] using getLast?_ne_return (ends_of_trim_eq_self h.trimmed).2

/-- The lines of a comment that is laid out. -/
theorem lines_body_layout (hdescription : ∀ line ∈ description, IsPlainLine line)
    (htags : ∀ tag ∈ tags, tag.IsPlain) : lines (body (layout description tags)) =
      [] :: (description.map (" * ".toList ++ ·) ++
        (tags.map DocTag.line).map (" * ".toList ++ ·)) ++ [[' ']] := by
  rw [layout, lines_body_block, List.map_append]
  · rw [List.forall_mem_append, List.forall_mem_map]
    exact ⟨fun line hline => (hdescription line hline).oneLine,
      fun tag htag => not_mem_line (htags tag htag)⟩
  · rw [List.forall_mem_append, List.forall_mem_map]
    exact ⟨fun line hline => getLast?_ne_return (hdescription line hline).trimmed,
      fun tag htag => getLast?_line_ne_return (htags tag htag)⟩

/-- What is read off the lines: the line of the opener and that of the closer give blank lines of
the description at most. -/
theorem foldl_layout (hdescription : ∀ line ∈ description, IsPlainLine line)
    (htags : ∀ tag ∈ tags, tag.IsPlain) : ∃ blank : List (List Char),
      (∀ line ∈ blank, isBlankLine line = true) ∧
      (lines (body (layout description tags))).foldl Reading.take {} =
        ⟨[[]] ++ description ++ blank, tags.reverse⟩ := by
  have hopening : Reading.take {} [] = ⟨[[]], []⟩ := rfl
  obtain ⟨blank, hblank, hclosing⟩ :=
    Reading.take_closing ⟨[[]] ++ description, tags.reverse⟩
  refine ⟨blank, hblank, ?_⟩
  rw [lines_body_layout hdescription htags, List.foldl_concat, List.foldl_cons, hopening,
    List.foldl_append, Reading.foldl_description hdescription rfl, Reading.foldl_tags htags,
    List.append_nil, hclosing]

/-- **A comment that is laid out is read back**: its description is the lines, joined by line feeds,
its tags are the tags, and its roles are those that the names of the tags mark. -/
theorem parse_layout (hdescription : ∀ line ∈ description, IsPlainLine line)
    (hfirst : ∀ line ∈ description.head?, isBlankLine line = false)
    (hlast : ∀ line ∈ description.getLast?, isBlankLine line = false)
    (htags : ∀ tag ∈ tags, tag.IsPlain) :
    parse (layout description tags) =
        ⟨if description.isEmpty then none else some (joinWith ['\n'] description), tags⟩ ∧
      ∀ role, role ∈ (parse (layout description tags)).roles ↔
        ∃ tag ∈ tags, tag.name = role.tag.toList := by
  have hparse : parse (layout description tags) =
      ⟨if description.isEmpty then none else some (joinWith ['\n'] description), tags⟩ := by
    obtain ⟨blank, hblank, hread⟩ := foldl_layout hdescription htags
    have htrim : trimLines ([[]] ++ description ++ blank) = description :=
      trimLines_append (by decide) hblank hfirst hlast
    rw [parse_of_foldl hread, htrim, List.reverse_reverse]
  refine ⟨hparse, fun role => ?_⟩
  have hall : role ∈ Role.all := by cases role <;> decide
  simp [hparse, roles, hall]

/-- Empty lines, blanks at the start of a line and at signs within one stay in a description. -/
theorem parse_layout_event :
    parse (layout ["A calendar event.".toList, [], "  * see @resource".toList]
        [⟨"resource".toList, []⟩, ⟨"see".toList, "https://example.com".toList⟩]) =
      ⟨some "A calendar event.\n\n  * see @resource".toList,
        [⟨"resource".toList, []⟩, ⟨"see".toList, "https://example.com".toList⟩]⟩ ∧
    ∀ role, role ∈ (parse (layout ["A calendar event.".toList, [], "  * see @resource".toList]
        [⟨"resource".toList, []⟩, ⟨"see".toList, "https://example.com".toList⟩])).roles ↔
      ∃ tag ∈ [(⟨"resource".toList, []⟩ : DocTag), ⟨"see".toList, "https://example.com".toList⟩],
        tag.name = role.tag.toList :=
  parse_layout (by decide) (by decide) (by decide) (by decide)

end DocComment

end ServiceScaffold
