import ServiceScaffold.Proofs.Syntax.LongerTexts
import ServiceScaffold.Syntax.Scan

/-!
# Places while reading

The state of reading a text agrees with the text: what is left stands at the place that the state
gives, so that the places of a node cut out what has been read as the node.

* `Placed` : what stands in a text from a place on;
* `Placed.slice` : the text between two places is what stands between them;
* `Node.IsPlain` : a comment that has been read has the text of a comment;
* `Upcoming.In` : what holds of the token that comes next, and `Upcoming.in_ofText` that it does.
-/

namespace ServiceScaffold.Syntax

open Text

/-! ### Bytes -/

theorem byteLength_cons (c : Char) (cs : List Char) :
    byteLength (c :: cs) = byteWidth c + byteLength cs := rfl

theorem byteLength_append (front cs : List Char) :
    byteLength (front ++ cs) = byteLength front + byteLength cs := by
  induction front with
  | nil => exact (Nat.zero_add _).symm
  | cons c front ih => rw [List.cons_append, byteLength_cons, byteLength_cons, ih, Nat.add_assoc]

theorem byteWidth_pos (c : Char) : 0 < byteWidth c := Char.utf8Size_pos c

theorem dropBytes_append (front cs : List Char) :
    dropBytes (byteLength front) (front ++ cs) = cs := by
  induction front with
  | nil => cases cs <;> simp [byteLength, dropBytes]
  | cons c front ih =>
    have hpos := byteWidth_pos c
    have hne : byteWidth c + byteLength front ≠ 0 := by omega
    rw [byteLength_cons, List.cons_append, dropBytes, if_neg hne, Nat.add_sub_cancel_left, ih]

theorem takeBytes_append (front cs : List Char) :
    takeBytes (byteLength front) (front ++ cs) = front := by
  induction front with
  | nil => cases cs <;> simp [byteLength, takeBytes]
  | cons c front ih =>
    have hpos := byteWidth_pos c
    have hne : byteWidth c + byteLength front ≠ 0 := by omega
    rw [byteLength_cons, List.cons_append, takeBytes, if_neg hne, Nat.add_sub_cancel_left, ih]

/-! ### Places -/

/-- `cs` is what stands in `source` from the place `l` on. -/
def Placed (source : List Char) (l : Location) (cs : List Char) : Prop :=
  ∃ front, source = front ++ cs ∧ l.offset = byteLength front

theorem placed_start (source : List Char) : Placed source {} source := ⟨[], rfl, rfl⟩

theorem offset_after (l : Location) (c : Char) : (l.after c).offset = l.offset + byteWidth c := by
  unfold Location.after
  split_ifs with hc
  · subst hc
    rfl
  · rfl

namespace Placed

variable {source cs rest : List Char} {l : Location}

theorem after {c : Char} (h : Placed source l (c :: cs)) : Placed source (l.after c) cs := by
  obtain ⟨front, hsource, hoffset⟩ := h
  refine ⟨front ++ [c], by simp [hsource], ?_⟩
  rw [offset_after, hoffset, byteLength_append]
  rfl

theorem advance (h : Placed source l cs) (n : Nat) :
    Placed source (l.advance n cs) (cs.drop n) := by
  induction n generalizing l cs with
  | zero => simpa [Location.advance] using h
  | succ n ih =>
    cases cs with
    | nil => simpa [Location.advance] using h
    | cons c cs => exact ih h.after

theorem skipTo (h : Placed source l cs) (hrest : rest <:+ cs) :
    Placed source (l.skipTo cs rest) rest := by
  have hdrop := h.advance (cs.length - rest.length)
  rwa [← List.suffix_iff_eq_drop.1 hrest] at hdrop

/-- The text between two places is what stands between them. -/
theorem slice {stop : Location} {piece : List Char} (h : Placed source l (piece ++ rest))
    (hstop : Placed source stop rest) : slice l.offset stop.offset source = piece := by
  obtain ⟨front, hfront, hoffset⟩ := h
  obtain ⟨front', hfront', hoffset'⟩ := hstop
  -- the texts before both places differ by the piece
  have heq : front' = front ++ piece := by
    rw [hfront, ← List.append_assoc] at hfront'
    exact (List.append_cancel_right hfront').symm
  have hwidth : stop.offset - l.offset = byteLength piece := by
    rw [hoffset, hoffset', heq, byteLength_append]
    omega
  rw [Text.slice, hwidth, hoffset, hfront, dropBytes_append, takeBytes_append]

theorem eq_dropBytes (h : Placed source l cs) : cs = dropBytes l.offset source := by
  obtain ⟨front, rfl, hoffset⟩ := h
  rw [hoffset, dropBytes_append]

/-- What stands behind a place is the text up to another place, and what stands behind that one. -/
theorem eq_slice_append {stop : Location} (h : Placed source l cs) (hstop : Placed source stop rest)
    (hne : Text.slice l.offset stop.offset source ≠ []) :
    cs = Text.slice l.offset stop.offset source ++ rest := by
  have hlt : l.offset < stop.offset := by
    by_contra hle
    refine hne ?_
    rw [Text.slice, Nat.sub_eq_zero_of_le (not_lt.1 hle)]
    rcases dropBytes l.offset source with _ | ⟨c, more⟩ <;> rfl
  obtain ⟨front, hfront, hoffset⟩ := id h
  obtain ⟨front', hfront', hoffset'⟩ := id hstop
  obtain ⟨piece, rfl⟩ : front <+: front' := by
    obtain hprefix | ⟨piece, rfl⟩ :=
      List.prefix_or_prefix_of_prefix ⟨cs, hfront.symm⟩ ⟨rest, hfront'.symm⟩
    · exact hprefix
    · rw [hoffset, hoffset', byteLength_append] at hlt
      omega
  have hcs : cs = piece ++ rest :=
    List.append_cancel_left (hfront.symm.trans (hfront'.trans (List.append_assoc _ _ _)))
  rw [hcs] at h
  rw [h.slice hstop, hcs]

end Placed

/-! ### The next token -/

/-- A comment of the text. -/
structure Node.IsPlain (source : List Char) (n : Node) : Prop where
  children : n.children = []
  field : n.field = none
  text : comment? (n.text source) = some []

/-- What holds of the blanks and comments before a token. -/
structure Gap.In (source : List Char) (g : Gap) : Prop where
  placed : Placed source g.location g.rest
  near {n : Node} : n ∈ g.near → n.IsPlain source
  far {n : Node} : n ∈ g.far → n.IsPlain source

namespace Gap.In

variable {source : List Char} {g : Gap}

theorem blank {c : Char} {rest : List Char} (h : g.In source) (hrest : g.rest = c :: rest) :
    (g.blank c rest).In source where
  placed := by
    have hplaced := h.placed
    rw [hrest] at hplaced
    exact hplaced.after
  near := h.near
  far := h.far

theorem comment {rest : List Char} (h : g.In source) (hrest : comment? g.rest = some rest) :
    (g.comment rest).In source := by
  obtain ⟨text, htext⟩ := comment?_suffix hrest
  have hplaced := h.placed.skipTo (comment?_suffix hrest)
  -- the new node cuts out what has been read as a comment
  have hnode : (Node.mk .comment none g.location (g.location.skipTo g.rest rest) false
      []).IsPlain source := by
    refine ⟨rfl, rfl, ?_⟩
    have hstart := h.placed
    rw [← htext] at hrest hstart
    rw [Node.text, Node.start, Node.stop, hstart.slice hplaced]
    exact comment?_front hrest
  unfold Gap.comment
  dsimp only
  split_ifs with hbroken
  · refine ⟨hplaced, h.near, fun {n} hn => ?_⟩
    obtain rfl | hold := List.mem_cons.1 hn
    · exact hnode
    · exact h.far hold
  · refine ⟨hplaced, fun {n} hn => ?_, h.far⟩
    obtain rfl | hold := List.mem_cons.1 hn
    · exact hnode
    · exact h.near hold

theorem extend (h : g.In source) (fuel : Nat) : (Gap.extend fuel g).In source := by
  induction fuel generalizing g with
  | zero => exact h
  | succ fuel ih =>
    unfold Gap.extend
    split
    · exact h
    · rename_i c rest hrest
      split_ifs
      · exact ih (h.blank hrest)
      · split
        · rename_i more hcomment
          exact ih (h.comment (hrest ▸ hcomment))
        · exact h

end Gap.In

theorem Gap.in_ofText {source cs : List Char} {l : Location} (h : Placed source l cs) :
    (Gap.ofText l cs).In source :=
  Gap.In.extend ⟨h, fun hn => by simp at hn, fun hn => by simp at hn⟩ _

/-- What holds of the token that comes next: it is placed, and a word is a name. -/
structure Upcoming.In (source : List Char) (u : Upcoming) : Prop where
  gap : u.gap.In source
  placed : Placed source u.stop u.tail
  word {w : List Char} : u.token = .word w →
    slice u.start.offset u.stop.offset source = w ∧ IsName w

theorem Upcoming.in_ofText {source cs : List Char} {l : Location} (h : Placed source l cs) :
    (Upcoming.ofText l cs).In source := by
  have hgap := Gap.in_ofText h
  have hplaced := hgap.placed.skipTo (Token.ofText_suffix (Gap.ofText l cs).rest)
  refine ⟨hgap, hplaced, fun {w} hw => ?_⟩
  have hstart := hgap.placed
  rw [(Token.ofText_word hw).1] at hstart
  exact ⟨hstart.slice hplaced, isName_of_word hw⟩

end ServiceScaffold.Syntax
