import ServiceScaffold.Proofs.FilePath
import ServiceScaffold.Proofs.Store.Tree

/-!
# What writing changes on a disk

A file is written in two steps: the directories above it are made, then the file is put in place.
The first step only ever adds directories, on the way that the path takes (`Disk.Grows`).

* `Disk.ensureParent_grows` : what is made above a path, even if making it fails;
* `Disk.write_ok` : a file that could be written stands where its path leads, and the directories
  above it were made before;
* `Disk.write_frame` : writing changes nothing else that stood on the disk;
* `Disk.write_keeps` : **a write to a path at which nothing was found changes nothing that stood on
  the disk**, unless the path climbs out of a directory that was not there.
-/

namespace ServiceScaffold

namespace Disk

variable {d d' : Disk} {t s : Trail} {e : DiskEntry} {p q : FilePath} {cs : List Component}

/-! ### Places -/

theorem place_ok {x : DiskPlace} (h : d.place p = .ok x) :
    p.chars ≠ [] ∧ d.follow d.home p.components = .ok x := by
  unfold place at h
  split_ifs at h with hp
  exact ⟨by simpa using hp, h⟩

theorem trail_of_place_ok {x : DiskPlace} (h : d.place p = .ok x) :
    x = ⟨d.trailOf p, d.standing? (d.trailOf p)⟩ := follow_ok (place_ok h).2

theorem follow_error {x : StoreProblem} (h : d.follow t cs = .error x) :
    x = .missing ∨ x = .notDirectory := by
  fun_induction follow d t cs <;> simp_all

/-- Where nothing is found by a path that does not climb, nothing stands. -/
theorem standing?_of_not_exists (hd : d.IsTree) (hc : d.climbs p = false)
    (hno : d.pathExists p = false) (hplain : wantsDirectory p = false)
    (hdir : d.follow d.home p.components ≠ .error .notDirectory) (hp : p.chars ≠ []) :
    d.standing? (d.trailOf p) = none := by
  have hplace : d.place p = d.follow d.home p.components := by simp [place, hp]
  rcases hf : d.follow d.home p.components with x | x
  · obtain rfl | rfl := follow_error hf
    · exact standing?_of_missing hd hf hc
    · exact absurd hf hdir
  · rw [hf] at hplace
    have hx := trail_of_place_ok hplace
    rcases hs : d.standing? (d.trailOf p) with _ | ⟨b | r⟩
    · rfl
    · rw [hs] at hx
      simp [pathExists, stat, hplace, hx, hplain, Except.toBool] at hno
    · rw [hs] at hx
      simp [pathExists, stat, hplace, hx, Except.toBool] at hno

theorem place_of_pathExists (h : d.pathExists p = true) : ∃ x, d.place p = .ok x := by
  rcases hp : d.place p with c | x
  · simp [pathExists, stat, hp, Except.toBool] at h
  · exact ⟨x, rfl⟩

theorem standing?_of_pathExists (h : d.pathExists p = true) :
    ∃ x, d.standing? (d.trailOf p) = some x := by
  obtain ⟨x, hx⟩ := place_of_pathExists h
  rw [trail_of_place_ok hx] at hx
  rcases hs : d.standing? (d.trailOf p) with _ | x
  · simp [pathExists, stat, hx, hs, Except.toBool] at h
  · exact ⟨x, rfl⟩

/-! ### Making directories -/

/-- Everything is kept, and only directories are added, each on the way that the steps take. -/
structure Grows (d d' : Disk) (cs : List Component) : Prop extends d.Keeps d' where
  made {t : Trail} {e : DiskEntry} : d'.standing? t = some e → d.standing? t = some e ∨
    e = .directory true ∧ ∃ pre, pre <+: cs ∧ t = trailFrom d.home pre
  tree : d.IsTree → d'.IsTree

namespace Grows

theorem refl (d : Disk) (cs : List Component) : d.Grows d cs := ⟨.refl d, .inl, id⟩

theorem trans {d₁ d₂ d₃ : Disk} (h : d₁.Grows d₂ cs) (h' : d₂.Grows d₃ cs) : d₁.Grows d₃ cs := by
  refine ⟨h.toKeeps.trans h'.toKeeps, fun hs => ?_, fun hd => h'.tree (h.tree hd)⟩
  obtain hs | ⟨he, pre, hpre, ht⟩ := h'.made hs
  · exact h.made hs
  · exact .inr ⟨he, pre, hpre, by rw [ht, h.home]⟩

theorem mono (h : d.Grows d' cs) {more : List Component} (hcs : cs <+: more) : d.Grows d' more :=
  ⟨h.toKeeps, fun hs => (h.made hs).imp_right fun ⟨he, pre, hpre, ht⟩ =>
    ⟨he, pre, hpre.trans hcs, ht⟩, h.tree⟩

end Grows

theorem makeDirectory_grows (h : d.makeDirectory p = .ok d') : d.Grows d' p.components := by
  unfold makeDirectory at h
  split at h
  · simp at h
  · simp at h
  · rename_i trail hplace
    obtain rfl := Except.ok.inj h
    obtain ⟨rfl, hs⟩ : trail = d.trailOf p ∧ none = d.standing? (d.trailOf p) := by
      simpa using trail_of_place_ok hplace
    have hne : d.trailOf p ≠ [] := fun h => by simp [h] at hs
    refine ⟨.put d hs.symm _, fun {t e} ht => ?_, fun hd => hd.put hne ?_ (.inl ⟨true, rfl⟩)⟩
    · rw [standing?_put d hne] at ht
      split_ifs at ht with hts
      · exact .inr ⟨(Option.some.inj ht).symm, _, List.prefix_rfl, hts⟩
      · exact .inl ht
    · exact hasDirectory_dropLast_of_follow hd hd.home (place_ok hplace).2

theorem ensureDirectory_grows (d : Disk) (p : FilePath) :
    d.Grows (d.ensureDirectory p).2 p.components := by
  unfold ensureDirectory
  split
  · rename_i hmake
    exact makeDirectory_grows hmake
  · exact .refl d _

theorem ensureDirectories_grows (d : Disk) (fuel : Nat) (p : FilePath) :
    d.Grows (d.ensureDirectories fuel p).2 p.components := by
  induction fuel generalizing p with
  | zero => exact .refl d _
  | succ fuel ih =>
    rw [ensureDirectories]
    by_cases hp : p.chars.isEmpty = true
    · rw [if_pos hp]
      exact .refl d _
    rw [if_neg hp]
    split
    · rename_i hmake
      exact makeDirectory_grows hmake
    · split
      · exact .refl d _
      · rename_i parent hparent
        -- the directory above is missing and made first, on the way to this one
        have hup : d.Grows (d.ensureDirectories fuel parent).2 p.components := by
          refine (ih parent).mono ?_
          rw [FilePath.components_parent? hparent]
          exact List.dropLast_prefix _
        split
        · rename_i hfail
          simpa [hfail] using hup
        · rename_i hdone
          rw [hdone] at hup
          exact hup.trans (ensureDirectory_grows _ p)
    · exact .refl d _

/-- The directories that are made above a path are on its way. -/
theorem ensureParent_grows (d : Disk) (p : FilePath) :
    d.Grows (d.ensureParent p).2 p.components.dropLast := by
  unfold ensureParent
  split
  · rename_i parent hparent
    rw [← FilePath.components_parent? hparent]
    exact ensureDirectories_grows d _ parent
  · exact .refl d _

/-! ### Writing a file -/

theorem wantsDirectory_eq_false (hdot : endsInDot p = false) (hslash : endsInSlash p = false) :
    wantsDirectory p = false := by simp [wantsDirectory, hdot, hslash]

theorem writeBytes_error {x : StoreProblem} {b : ByteArray}
    (h : d.writeBytes p b = (.error x, d')) : d' = d := by
  unfold writeBytes at h
  split at h
  · exact (Prod.mk.inj h).2.symm
  · exact (Prod.mk.inj h).2.symm
  · split_ifs at h <;> simp_all

theorem writeBytes_ok {b : ByteArray} (h : d.writeBytes p b = (.ok (), d')) :
    (∃ x, d.place p = .ok x) ∧ ¬d.HasDirectory (d.trailOf p) ∧ wantsDirectory p = false ∧
      d' = d.put (d.trailOf p) (.file b) := by
  unfold writeBytes at h
  split at h
  · simp at h
  · simp at h
  · rename_i trail entry hnot hplace
    have hx := trail_of_place_ok hplace
    obtain ⟨rfl, rfl⟩ : trail = d.trailOf p ∧ entry = d.standing? (d.trailOf p) := by
      simpa using hx
    split_ifs at h with hdot _ hslash
    · simp at h
    · simp at h
    · simp at h
    · refine ⟨⟨_, hplace⟩, fun ⟨r, hr⟩ => hnot r hr, ?_, (Prod.mk.inj h).2.symm⟩
      exact wantsDirectory_eq_false (by simpa using hdot) (by simpa using hslash)

theorem write_error {x : StoreProblem} {b : ByteArray} (h : d.write p b = (.error x, d')) :
    d.Grows d' p.components.dropLast := by
  have hup := ensureParent_grows d p
  unfold write at h
  split at h
  · rename_i hfail
    rw [hfail] at hup
    rwa [← (Prod.mk.inj h).2]
  · rename_i mid hdone
    rw [hdone] at hup
    rwa [writeBytes_error h]

/-- A file that could be written stands where its path leads, once the directories above it are
made. -/
theorem write_ok {b : ByteArray} (h : d.write p b = (.ok (), d')) :
    ∃ mid, d.Grows mid p.components.dropLast ∧ (∃ x, mid.place p = .ok x) ∧
      ¬mid.HasDirectory (d.trailOf p) ∧ wantsDirectory p = false ∧
      d' = mid.put (d.trailOf p) (.file b) := by
  have hup := ensureParent_grows d p
  unfold write at h
  split at h
  · simp at h
  · rename_i mid hdone
    rw [hdone] at hup
    have htrail : mid.trailOf p = d.trailOf p := by rw [trailOf, hup.home, trailOf]
    exact ⟨mid, hup, htrail ▸ writeBytes_ok h⟩

section Written

variable {b : ByteArray} (h : d.write p b = (.ok (), d'))

include h

theorem standing?_write_self : d'.standing? (d.trailOf p) = some (.file b) := by
  obtain ⟨mid, hgrows, -, hdir, -, rfl⟩ := write_ok h
  rw [standing?_put mid (ne_nil_of_not_hasDirectory hdir), if_pos rfl]

/-- Writing changes nothing else that stood on the disk. -/
theorem write_frame (hs : d.standing? s = some e) (hne : s ≠ d.trailOf p) :
    d'.standing? s = some e := by
  obtain ⟨mid, hgrows, -, hdir, -, rfl⟩ := write_ok h
  rw [standing?_put mid (ne_nil_of_not_hasDirectory hdir), if_neg hne, hgrows.standing hs]

theorem write_kinds : d.KeepsKinds d' := by
  obtain ⟨mid, hgrows, -, hdir, -, rfl⟩ := write_ok h
  exact hgrows.kinds.trans (.put_file hdir b)

theorem isTree_write (hd : d.IsTree) : d'.IsTree := by
  obtain ⟨mid, hgrows, ⟨x, hplace⟩, hdir, -, rfl⟩ := write_ok h
  have htrail : mid.trailOf p = d.trailOf p := by rw [trailOf, hgrows.home, trailOf]
  have hmid := hgrows.tree hd
  refine hmid.put (ne_nil_of_not_hasDirectory hdir) ?_ (.inr hdir)
  have hup := hasDirectory_dropLast_of_follow hmid hmid.home (place_ok hplace).2
  rwa [trail_of_place_ok hplace, htrail] at hup

/-- After a write, no path climbs out of a missing directory that leads above what was written. -/
theorem climbs_write (hq : q.components <+: p.components) : d'.climbs q = false := by
  obtain ⟨mid, hgrows, ⟨x, hplace⟩, hdir, -, rfl⟩ := write_ok h
  have hkinds : mid.KeepsKinds (mid.put (d.trailOf p) (.file b)) := .put_file hdir b
  obtain ⟨rest, hrest⟩ := hq
  obtain ⟨y, hy⟩ := exists_follow_of_append (hrest ▸ (place_ok hplace).2)
  rw [climbs, hkinds.home]
  exact hkinds.climbsFrom (climbsFrom_of_follow_ok hy)

/-- Where a file could be written and nothing was found before, nothing stood, unless the path
climbs out of a directory that is not there. -/
theorem standing?_of_written (hd : d.IsTree) (hc : d.climbs p = false)
    (hno : d.pathExists p = false) : d.standing? (d.trailOf p) = none := by
  obtain ⟨mid, hgrows, ⟨x, hplace⟩, hdir, hplain, rfl⟩ := write_ok h
  have hfollow : d.follow d.home p.components ≠ .error .notDirectory := fun hf => by
    have hmid := hgrows.kinds.follow_notDirectory hf
    rw [← hgrows.home, (place_ok hplace).2] at hmid
    simp at hmid
  exact standing?_of_not_exists hd hc hno hplain hfollow (place_ok hplace).1

/-- **A write to a path at which nothing was found keeps all that stood on the disk**, unless the
path climbs out of a directory that is not there. -/
theorem write_keeps (hd : d.IsTree) (hc : d.climbs p = false) (hno : d.pathExists p = false) :
    d.Keeps d' := by
  have hnone := standing?_of_written h hd hc hno
  obtain ⟨mid, hgrows, -, hdir, -, rfl⟩ := write_ok h
  -- nothing is in the way of the file, except a directory that was made for it
  have hmid : mid.standing? (d.trailOf p) = none := by
    rcases hs : mid.standing? (d.trailOf p) with _ | e
    · rfl
    · obtain hs' | ⟨rfl, -⟩ := hgrows.made hs
      · rw [hnone] at hs'; simp at hs'
      · exact absurd ⟨true, hs⟩ hdir
  exact hgrows.toKeeps.trans (.put mid hmid _)

end Written

end Disk

end ServiceScaffold
