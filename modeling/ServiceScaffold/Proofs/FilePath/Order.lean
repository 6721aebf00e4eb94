import Mathlib.Data.List.Basic
import ServiceScaffold.FilePath.Basic

/-!
# The order of paths

Paths are ordered by their components, and components by their kind and name.

* `Component.before_trans`, `Component.before_asymm`, `Component.before_connex` : the order of
  components is strict, and tells them apart;
* `FilePath.before_trans`, `FilePath.before_asymm`, `FilePath.before_connex` : **the order of paths
  is strict**, and tells them apart by where they lead;
* `FilePath.pairwise_before_sort`, `FilePath.sort_eq` : paths to different places are sorted
  strictly, and in one way only.
-/

namespace ServiceScaffold

namespace Component

theorem before_asymm {a b : Component} (h : a.before b = true) : b.before a = false := by
  cases a <;> cases b
  case normal.normal x y => exact decide_eq_false (List.lt_asymm (of_decide_eq_true h))
  all_goals simp_all [before, rank]

theorem before_trans {a b c : Component} (h : a.before b = true) (h' : b.before c = true) :
    a.before c = true := by
  cases a <;> cases b <;> cases c
  case normal.normal.normal x y z =>
    exact decide_eq_true (List.lt_trans (of_decide_eq_true h) (of_decide_eq_true h'))
  all_goals simp_all [before, rank]

theorem before_connex {a b : Component} (h : a.before b = false) (h' : b.before a = false) :
    a = b := by
  cases a <;> cases b
  case normal.normal x y =>
    exact congrArg normal (List.le_antisymm (of_decide_eq_false h') (of_decide_eq_false h))
  all_goals simp_all [before, rank]

end Component

namespace FilePath

theorem componentsBefore_asymm {as bs : List Component} (h : componentsBefore as bs = true) :
    componentsBefore bs as = false := by
  induction as generalizing bs with
  | nil => cases bs <;> rfl
  | cons a as ih =>
    cases bs with
    | nil => simp [componentsBefore] at h
    | cons b bs =>
      simp only [componentsBefore, Bool.or_eq_true, Bool.and_eq_true, beq_iff_eq] at h
      obtain hlt | ⟨rfl, hrest⟩ := h
      · have hne : b ≠ a := by
          rintro rfl
          simpa [hlt] using Component.before_asymm hlt
        simp [componentsBefore, Component.before_asymm hlt, hne]
      · have hself : a.before a = false := Bool.eq_false_iff.2 fun hlt => by
          simpa [hlt] using Component.before_asymm hlt
        simp [componentsBefore, ih hrest, hself]

theorem componentsBefore_trans {as bs cs : List Component} (h : componentsBefore as bs = true)
    (h' : componentsBefore bs cs = true) : componentsBefore as cs = true := by
  induction as generalizing bs cs with
  | nil =>
    cases cs with
    | nil => cases bs <;> simp [componentsBefore] at h'
    | cons c cs => rfl
  | cons a as ih =>
    cases bs with
    | nil => simp [componentsBefore] at h
    | cons b bs =>
      cases cs with
      | nil => simp [componentsBefore] at h'
      | cons c cs =>
        simp only [componentsBefore, Bool.or_eq_true, Bool.and_eq_true, beq_iff_eq] at h h' ⊢
        obtain hlt | ⟨rfl, hrest⟩ := h <;> obtain hlt' | ⟨rfl, hrest'⟩ := h'
        · exact .inl (Component.before_trans hlt hlt')
        · exact .inl hlt
        · exact .inl hlt'
        · exact .inr ⟨rfl, ih hrest hrest'⟩

theorem componentsBefore_connex {as bs : List Component} (h : componentsBefore as bs = false)
    (h' : componentsBefore bs as = false) : as = bs := by
  induction as generalizing bs with
  | nil =>
    cases bs with
    | nil => rfl
    | cons b bs => cases h
  | cons a as ih =>
    cases bs with
    | nil => cases h'
    | cons b bs =>
      simp only [componentsBefore, Bool.or_eq_false_iff] at h h'
      obtain rfl := Component.before_connex h.1 h'.1
      rw [ih (by simpa using h.2) (by simpa using h'.2)]

/-- The order of paths is strict. -/
theorem before_asymm {p q : FilePath} (h : p.before q = true) : q.before p = false :=
  componentsBefore_asymm h

theorem before_trans {p q r : FilePath} (h : p.before q = true) (h' : q.before r = true) :
    p.before r = true := componentsBefore_trans h h'

/-- Of two paths to different places, one comes before the other. -/
theorem before_connex {p q : FilePath} (h : p.before q = false) (h' : q.before p = false) :
    p.components = q.components := componentsBefore_connex h h'

/-- Paths sorted by their order. -/
def sort (paths : List FilePath) : List FilePath := paths.mergeSort fun p q => !q.before p

theorem sort_perm (paths : List FilePath) : (sort paths).Perm paths :=
  List.mergeSort_perm paths _

/-- Paths to different places are sorted strictly. -/
theorem pairwise_before_sort {paths : List FilePath} (h : (paths.map components).Nodup) :
    (sort paths).Pairwise fun p q => p.before q = true := by
  have htrans (p q r : FilePath) (hpq : (!q.before p) = true) (hqr : (!r.before q) = true) :
      (!r.before p) = true := by
    rw [Bool.not_eq_true'] at hpq hqr ⊢
    by_contra hrp
    rw [Bool.not_eq_false] at hrp
    rcases hbefore : p.before q with _ | _
    · -- then `p` and `q` lead to the same place
      rw [before, before_connex hbefore hpq] at hrp
      exact absurd (hrp.symm.trans hqr) (by decide)
    · exact absurd ((before_trans hrp hbefore).symm.trans hqr) (by decide)
  have htotal (p q : FilePath) : (!q.before p || !p.before q) = true := by
    rcases hbefore : p.before q with _ | _
    · simp
    · simp [before_asymm hbefore]
  have hsorted : (sort paths).Pairwise fun p q => (!q.before p) = true :=
    List.pairwise_mergeSort htrans htotal paths
  have hdistinct : (sort paths).Pairwise fun p q => p.components ≠ q.components :=
    List.pairwise_map.1 (((sort_perm paths).map components).nodup_iff.2 h)
  refine hsorted.imp₂ (fun p q hpq hne => ?_) hdistinct
  by_contra hbefore
  exact hne (before_connex (by simpa using hbefore) (by simpa using hpq))

/-- Paths are sorted in one way only. -/
theorem sort_eq {paths sorted : List FilePath} (hperm : paths.Perm sorted)
    (h : sorted.Pairwise fun p q => p.before q = true) : sort paths = sorted := by
  have hdistinct : (sorted.map components).Nodup := by
    refine List.pairwise_map.2 (h.imp fun {p q} hpq heq => ?_)
    have hself : p.before p = true := by rwa [before, heq, ← before] at hpq ⊢
    exact absurd ((before_asymm hself).symm.trans hself) (by decide)
  refine List.Perm.eq_of_pairwise (fun p q _ _ hpq hqp => ?_)
    (pairwise_before_sort ((hperm.map components).nodup_iff.2 hdistinct)) h
    ((sort_perm paths).trans hperm)
  exact absurd ((before_asymm hpq).symm.trans hqp) (by decide)

/-- Paths to different places are always sorted in the same way. -/
theorem sort_eq_of_perm {paths more : List FilePath} (h : (more.map components).Nodup)
    (hperm : paths.Perm more) : sort paths = sort more :=
  sort_eq (hperm.trans (sort_perm more).symm) (pairwise_before_sort h)

end FilePath

end ServiceScaffold
