import ServiceScaffold.Proofs.Text.Occurrence
import ServiceScaffold.Proofs.Text.Splitting

/-!
# Collapsed blanks

A text whose runs of blanks are single spaces stays as it is if they are collapsed again.

* `fields_joinWith` : words with single spaces between them are the words of their text;
* `collapseBlanks_idem` : **collapsing twice is collapsing once**;
* `trim_collapseBlanks` : no blanks are left at the ends.
-/

namespace ServiceScaffold.Text

/-- A word: there is something in it, and no blank. -/
def IsWord (w : List Char) : Prop := w ≠ [] ∧ ∀ c ∈ w, isBlank c = false

theorem isWord_of_mem_fields {cs w : List Char} (h : w ∈ fields cs) : IsWord w := by
  obtain ⟨hmem, hne⟩ := List.mem_filter.1 h
  exact ⟨by rintro rfl; simp at hne, not_mem_of_mem_splitOn hmem⟩

/-- Words with single spaces between them are the words of their text. -/
theorem fields_joinWith {words : List (List Char)} (h : ∀ w ∈ words, IsWord w) :
    fields (joinWith [' '] words) = words := by
  induction words with
  | nil => rfl
  | cons w words ih =>
    obtain ⟨hne, hblank⟩ := h w List.mem_cons_self
    have hkeep (more : List (List Char)) : (w :: more).filter (!·.isEmpty) =
        w :: more.filter (!·.isEmpty) := List.filter_cons_of_pos (by simp [hne])
    rcases words with _ | ⟨v, words⟩
    · rw [joinWith, fields, splitOn_eq_self hblank, hkeep, List.filter_nil]
    · have hrest := ih fun u hu => h u (List.mem_cons_of_mem _ hu)
      rw [fields] at hrest
      have hjoin : joinWith [' '] (w :: v :: words) = w ++ ' ' :: joinWith [' '] (v :: words) := by
        simp [joinWith]
      rw [hjoin, fields, splitOn_append_cons (by decide), splitOn_eq_self hblank,
        List.singleton_append, hkeep, hrest]

/-- **Collapsing twice is collapsing once.** -/
theorem collapseBlanks_idem (cs : List Char) :
    collapseBlanks (collapseBlanks cs) = collapseBlanks cs := by
  rw [collapseBlanks, collapseBlanks, fields_joinWith fun w => isWord_of_mem_fields]

/-- The last character of words with single spaces between them is that of the last word. -/
theorem getLast?_joinWith {words : List (List Char)} (h : ∀ w ∈ words, IsWord w) :
    ∀ c ∈ (joinWith [' '] words).getLast?, isBlank c = false := by
  induction words with
  | nil => simp [joinWith]
  | cons w words ih =>
    obtain ⟨hne, hblank⟩ := h w List.mem_cons_self
    rcases words with _ | ⟨v, words⟩
    · exact fun c hc => hblank c (List.mem_of_getLast? hc)
    · have hrest := ih fun u hu => h u (List.mem_cons_of_mem _ hu)
      intro c hc
      have hjoin : joinWith [' '] (w :: v :: words) = (w ++ [' ']) ++ joinWith [' '] (v :: words) := by
        simp [joinWith]
      rw [hjoin, List.getLast?_append] at hc
      rcases hlast : (joinWith [' '] (v :: words)).getLast? with _ | last
      · -- the words that follow are not empty
        have hnil := List.getLast?_eq_none_iff.1 hlast
        have hfields := fields_joinWith fun u hu => h u (List.mem_cons_of_mem w hu)
        rw [hnil] at hfields
        cases hfields
      · rw [hlast] at hc
        exact hrest c (by rw [hlast]; exact hc)

/-- The first character of words with single spaces between them is that of the first word. -/
theorem head?_joinWith {words : List (List Char)} (h : ∀ w ∈ words, IsWord w) :
    ∀ c ∈ (joinWith [' '] words).head?, isBlank c = false := by
  rcases words with _ | ⟨w, _ | ⟨v, words⟩⟩
  · simp [joinWith]
  · exact fun c hc => (h w List.mem_cons_self).2 c (List.mem_of_head? hc)
  · obtain ⟨hne, hblank⟩ := h w List.mem_cons_self
    obtain ⟨first, rest, rfl⟩ := List.exists_cons_of_ne_nil hne
    simpa [joinWith] using hblank first List.mem_cons_self

/-- **No blanks are left at the ends.** -/
theorem trim_collapseBlanks (cs : List Char) : trim (collapseBlanks cs) = collapseBlanks cs := by
  have hwords : ∀ w ∈ fields cs, IsWord w := fun w => isWord_of_mem_fields
  have hfirst := head?_joinWith hwords
  have hlast := getLast?_joinWith hwords
  unfold collapseBlanks
  rcases hjoin : joinWith [' '] (fields cs) with _ | ⟨c, rest⟩
  · rfl
  · rw [hjoin] at hfirst hlast
    obtain ⟨last, hend⟩ :=
      List.getLast?_isSome.2 (List.cons_ne_nil c rest) |> Option.isSome_iff_exists.1
    exact trim_eq_self rfl hend (hfirst c rfl) (hlast last hend)

end ServiceScaffold.Text
