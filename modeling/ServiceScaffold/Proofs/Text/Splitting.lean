import Mathlib.Data.List.Basic
import Mathlib.Tactic.SplitIfs
import ServiceScaffold.Text.Blank

/-!
# Texts cut at separators

`Text.splitOn` cuts a text at all characters of a kind.  Nothing is lost but the cuts, and no piece
holds a character that is cut at or anything that the text does not hold.  Pieces, and lines, that
are put together with cuts behind them come back (`splitOn_flatMap`, `lines_flatMap`).
-/

namespace ServiceScaffold.Text

variable {p : Char → Bool}

theorem joinWith_cons {sep : List Char} {pieces : List (List Char)} (hne : pieces ≠ [])
    (piece : List Char) : joinWith sep (piece :: pieces) = piece ++ sep ++ joinWith sep pieces := by
  obtain ⟨first, rest, rfl⟩ := List.exists_cons_of_ne_nil hne
  rfl

/-- What is added to the last piece is added to the text. -/
theorem joinWith_concat_append (sep : List Char) (pieces : List (List Char))
    (last more : List Char) :
    joinWith sep (pieces ++ [last ++ more]) = joinWith sep (pieces ++ [last]) ++ more := by
  induction pieces with
  | nil => rfl
  | cons piece pieces ih =>
    rw [List.cons_append, List.cons_append, joinWith_cons (by simp), joinWith_cons (by simp), ih,
      List.append_assoc, List.append_assoc, List.append_assoc]

theorem splitOn_ne_nil (p : Char → Bool) (cs : List Char) : splitOn p cs ≠ [] := by
  cases cs with
  | nil => simp [splitOn]
  | cons c cs =>
    rw [splitOn]
    split_ifs
    · simp
    · split <;> simp

theorem splitOn_append_cons {c : Char} (hc : p c = true) (a b : List Char) :
    splitOn p (a ++ c :: b) = splitOn p a ++ splitOn p b := by
  induction a with
  | nil => simp [splitOn, hc]
  | cons x a ih =>
    simp only [List.cons_append, splitOn, ih]
    split_ifs with hx
    · rfl
    · cases h : splitOn p a with
      | nil => exact absurd h (splitOn_ne_nil p a)
      | cons piece pieces => simp

/-- A text without cuts is one piece. -/
theorem splitOn_eq_self {cs : List Char} (h : ∀ c ∈ cs, p c = false) : splitOn p cs = [cs] := by
  induction cs with
  | nil => rfl
  | cons c cs ih =>
    rw [splitOn, ih fun x hx => h x (List.mem_cons_of_mem _ hx), h c List.mem_cons_self]
    simp

/-- A text of pieces that each end with a cut is cut into these pieces and the rest. -/
theorem splitOn_flatMap {c : Char} (hc : p c = true) {pieces : List (List Char)} {last : List Char}
    (h : ∀ piece ∈ pieces, ∀ x ∈ piece, p x = false) (hlast : ∀ x ∈ last, p x = false) :
    splitOn p (pieces.flatMap (· ++ [c]) ++ last) = pieces ++ [last] := by
  induction pieces with
  | nil => exact splitOn_eq_self hlast
  | cons piece pieces ih =>
    obtain ⟨hpiece, hpieces⟩ := List.forall_mem_cons.1 h
    have htext : (piece :: pieces).flatMap (· ++ [c]) ++ last =
        piece ++ c :: (pieces.flatMap (· ++ [c]) ++ last) := by simp
    rw [htext, splitOn_append_cons hc, splitOn_eq_self hpiece, ih hpieces]
    rfl

/-- A text of lines that each end with a line feed has these lines, and what stands behind them. -/
theorem lines_flatMap {ls : List (List Char)} {last : List Char} (hls : ∀ l ∈ ls, '\n' ∉ l)
    (hreturn : ∀ l ∈ ls, l.getLast? ≠ some '\r') (hlast : '\n' ∉ last) (hne : last ≠ []) :
    lines (ls.flatMap (· ++ ['\n']) ++ last) = ls ++ [last] := by
  have hplain {l : List Char} (hl : '\n' ∉ l) : ∀ c ∈ l, (c == '\n') = false := fun c hc => by
    simpa using fun h : c = '\n' => hl (h ▸ hc)
  have hkept : ls.map dropReturn = ls := by
    refine (List.map_congr_left fun l hl => ?_).trans (List.map_id ls)
    unfold dropReturn stripBack?
    rcases hstrip : ['\r'].isSuffixOf? l with _ | front
    · rfl
    · obtain rfl := List.isSuffixOf?_eq_some_iff_append_eq.1 hstrip
      exact absurd (by simp) (hreturn _ hl)
  have hpieces := splitOn_flatMap (p := (· == '\n')) (c := '\n') rfl
    (fun l hl => hplain (hls l hl)) (hplain hlast)
  obtain ⟨c, rest, rfl⟩ := List.exists_cons_of_ne_nil hne
  simp only [lines, hpieces, List.getLast?_concat, List.dropLast_concat, hkept]

/-- No piece between cuts holds a character that is cut at. -/
theorem not_mem_of_mem_splitOn {cs piece : List Char} (h : piece ∈ splitOn p cs) :
    ∀ c ∈ piece, p c = false := by
  induction cs generalizing piece with
  | nil =>
    obtain rfl := List.mem_singleton.1 h
    simp
  | cons c cs ih =>
    rw [splitOn] at h
    split_ifs at h with hc
    · obtain rfl | hrest := List.mem_cons.1 h
      · simp
      · exact ih hrest
    · split at h
      · obtain rfl := List.mem_singleton.1 h
        simpa using hc
      · rename_i first pieces hsplit
        rw [hsplit] at ih
        obtain rfl | hrest := List.mem_cons.1 h
        · have hfirst : ∀ c ∈ first, p c = false := ih List.mem_cons_self
          simpa using ⟨by simpa using hc, hfirst⟩
        · exact ih (List.mem_cons_of_mem _ hrest)

/-- The first piece is where the text starts, and the other pieces stand in it. -/
theorem isPrefix_of_splitOn {cs first : List Char} {pieces : List (List Char)}
    (h : splitOn p cs = first :: pieces) : first <+: cs ∧ ∀ piece ∈ pieces, piece <:+: cs := by
  induction cs generalizing first pieces with
  | nil =>
    obtain ⟨rfl, rfl⟩ := List.cons.inj h
    exact ⟨List.prefix_rfl, by simp⟩
  | cons c cs ih =>
    obtain ⟨first', pieces', hsplit⟩ := List.exists_cons_of_ne_nil (splitOn_ne_nil p cs)
    obtain ⟨hfirst, hpieces⟩ := ih hsplit
    have hlater : ∀ piece ∈ pieces', piece <:+: c :: cs :=
      fun piece hmem => (hpieces piece hmem).trans (List.suffix_cons c cs).isInfix
    rw [splitOn, hsplit] at h
    split_ifs at h
    · obtain ⟨rfl, rfl⟩ := List.cons.inj h
      refine ⟨List.nil_prefix, fun piece hmem => ?_⟩
      obtain rfl | hmem := List.mem_cons.1 hmem
      · exact hfirst.isInfix.trans (List.suffix_cons c cs).isInfix
      · exact hlater piece hmem
    · obtain ⟨rfl, rfl⟩ := List.cons.inj h
      exact ⟨List.cons_prefix_cons.2 ⟨rfl, hfirst⟩, hlater⟩

/-- Every piece stands in the text. -/
theorem isInfix_of_mem_splitOn {cs piece : List Char} (h : piece ∈ splitOn p cs) :
    piece <:+: cs := by
  obtain ⟨first, pieces, hsplit⟩ := List.exists_cons_of_ne_nil (splitOn_ne_nil p cs)
  obtain ⟨hfirst, hpieces⟩ := isPrefix_of_splitOn hsplit
  rw [hsplit] at h
  obtain rfl | hmem := List.mem_cons.1 h
  · exact hfirst.isInfix
  · exact hpieces piece hmem

end ServiceScaffold.Text
