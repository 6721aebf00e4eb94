import ServiceScaffold.Proofs.Store.Memory
import ServiceScaffold.Template.Lookup

/-!
# Places that are tried once

Of several paths to one place, only the first stays in a list of candidates.

* `pairwise_dropRepeated` : no two paths that are left are the same place;
* `exists_same_of_mem` : no place is lost;
* `dropRepeated_eq_append` : **what was kept before only takes its own places away** from what is
  left of the other paths.
-/

namespace ServiceScaffold.Template

open FilePath (same_self same_trans)

variable {kept paths : List FilePath} {p q : FilePath}

theorem mem_of_mem_dropRepeated (h : q ∈ dropRepeated kept paths) : q ∈ kept ∨ q ∈ paths := by
  induction paths generalizing kept with
  | nil => exact .inl h
  | cons p paths ih =>
    rw [dropRepeated] at h
    split_ifs at h
    · exact (ih h).imp_right (List.mem_cons_of_mem _)
    · obtain hkept | hpaths := ih h
      · obtain hkept | hp := List.mem_append.1 hkept
        · exact .inl hkept
        · exact .inr (List.mem_singleton.1 hp ▸ List.mem_cons_self)
      · exact .inr (List.mem_cons_of_mem _ hpaths)

/-- No place is lost when repeated ones are dropped. -/
theorem exists_same_of_mem (h : p ∈ kept ∨ p ∈ paths) :
    ∃ q ∈ dropRepeated kept paths, q.same p = true := by
  induction paths generalizing kept p with
  | nil =>
    obtain hkept | hpaths := h
    · exact ⟨p, hkept, same_self p⟩
    · cases hpaths
  | cons first paths ih =>
    rw [dropRepeated]
    split_ifs with hany
    · obtain hkept | hpaths := h
      · exact ih (.inl hkept)
      · obtain rfl | hpaths := List.mem_cons.1 hpaths
        -- the path is dropped for one that stands for it
        · obtain ⟨earlier, hearlier, hsame⟩ := List.any_eq_true.1 hany
          obtain ⟨q, hq, hq'⟩ := ih (.inl hearlier)
          exact ⟨q, hq, same_trans hq' hsame⟩
        · exact ih (.inr hpaths)
    · refine ih ?_
      simpa [or_assoc] using h

/-- Dropping repeated places leaves different ones. -/
theorem pairwise_dropRepeated (h : kept.Pairwise fun p q => p.components ≠ q.components) :
    (dropRepeated kept paths).Pairwise fun p q => p.components ≠ q.components := by
  induction paths generalizing kept with
  | nil => exact h
  | cons p paths ih =>
    rw [dropRepeated]
    split_ifs with hsame
    · exact ih h
    · refine ih (List.pairwise_append.2 ⟨h, List.pairwise_singleton _ p, fun q hq r hr => ?_⟩)
      obtain rfl := List.mem_singleton.1 hr
      intro hplace
      exact hsame (List.any_eq_true.2 ⟨q, hq, beq_iff_eq.2 hplace⟩)

theorem dropRepeated_append (kept paths paths' : List FilePath) :
    dropRepeated kept (paths ++ paths') = dropRepeated (dropRepeated kept paths) paths' := by
  induction paths generalizing kept with
  | nil => rfl
  | cons p paths ih =>
    rw [List.cons_append, dropRepeated, dropRepeated]
    split_ifs <;> exact ih _

/-- Paths to different places all stay. -/
theorem dropRepeated_of_pairwise
    (h : (kept ++ paths).Pairwise fun p q => p.components ≠ q.components) :
    dropRepeated kept paths = kept ++ paths := by
  induction paths generalizing kept with
  | nil => exact (List.append_nil kept).symm
  | cons p paths ih =>
    have hnew : ¬kept.any (·.same p) = true := fun hany => by
      obtain ⟨q, hq, hsame⟩ := List.any_eq_true.1 hany
      exact (List.pairwise_append.1 h).2.2 q hq p List.mem_cons_self (FilePath.same_iff.1 hsame)
    rw [dropRepeated, if_neg hnew, ih (by rwa [← List.append_cons]), ← List.append_cons]

/-- The path is none of the places. -/
def isNew (kept : List FilePath) (q : FilePath) : Bool := !kept.any (·.same q)

theorem isNew_eq_false : isNew kept q = false ↔ ∃ p ∈ kept, p.same q = true := by
  rw [isNew, Bool.not_eq_false', List.any_eq_true]

theorem any_filter_isNew (hp : isNew kept p = true) (more : List FilePath) :
    (more.filter (isNew kept)).any (·.same p) = more.any (·.same p) := by
  rw [Bool.eq_iff_iff, List.any_eq_true, List.any_eq_true]
  refine ⟨fun ⟨q, hq, hsame⟩ => ⟨q, (List.mem_filter.1 hq).1, hsame⟩,
    fun ⟨q, hq, hsame⟩ => ⟨q, List.mem_filter.2 ⟨hq, ?_⟩, hsame⟩⟩
  -- a place that was kept before is not that of `p`
  by_contra hold
  rw [Bool.not_eq_true, isNew_eq_false] at hold
  obtain ⟨earlier, hearlier, hq'⟩ := hold
  exact Bool.eq_false_iff.1 (isNew_eq_false.2 ⟨earlier, hearlier, same_trans hq' hsame⟩) hp

/-- It makes no difference whether the places that were kept before are dropped at once, or taken
away from what is left of all other paths. -/
theorem dropRepeated_append_filter (kept more paths : List FilePath) :
    dropRepeated (kept ++ more.filter (isNew kept)) paths =
      kept ++ (dropRepeated more paths).filter (isNew kept) := by
  induction paths generalizing more with
  | nil => rfl
  | cons p paths ih =>
    have hany : kept.any (·.same p) = !isNew kept p := (Bool.not_not _).symm
    rw [dropRepeated, dropRepeated, List.any_append, hany]
    cases hp : isNew kept p with
    | false =>
      have hmore : (more ++ [p]).filter (isNew kept) = more.filter (isNew kept) := by
        simp [hp]
      rw [Bool.not_false, Bool.true_or, if_pos rfl]
      split_ifs
      · exact ih more
      · rw [← hmore]
        exact ih (more ++ [p])
    | true =>
      have hmore : (more ++ [p]).filter (isNew kept) = more.filter (isNew kept) ++ [p] := by
        simp [hp]
      rw [Bool.not_true, Bool.false_or, any_filter_isNew hp]
      split_ifs
      · exact ih more
      · rw [List.append_assoc, ← hmore]
        exact ih (more ++ [p])

/-- **What was kept before only takes its own places away** from what is left of the other paths. -/
theorem dropRepeated_eq_append (kept paths : List FilePath) :
    dropRepeated kept paths = kept ++ (dropRepeated [] paths).filter (isNew kept) := by
  have happend := dropRepeated_append_filter kept [] paths
  rwa [List.filter_nil, List.append_nil] at happend

theorem prefix_dropRepeated (kept paths : List FilePath) : kept <+: dropRepeated kept paths :=
  ⟨_, (dropRepeated_eq_append kept paths).symm⟩

/-- Paths may be left out that would be dropped later. -/
theorem dropRepeated_dropRepeated (kept paths : List FilePath) :
    dropRepeated kept (dropRepeated [] paths) = dropRepeated kept paths := by
  have hpairwise : ([] ++ dropRepeated [] paths).Pairwise
      fun p q : FilePath => p.components ≠ q.components := pairwise_dropRepeated .nil
  rw [dropRepeated_eq_append, dropRepeated_of_pairwise hpairwise, List.nil_append,
    ← dropRepeated_eq_append]

end ServiceScaffold.Template
