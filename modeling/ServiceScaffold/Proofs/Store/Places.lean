import Mathlib.Data.List.Infix
import ServiceScaffold.Proofs.Store.Reading

/-!
# Places on the way of a path

A path may pass a place and leave it again (`new/a/..` passes `new/a`).  What is written below such
a path makes directories at the places that it passes.

* `Disk.passes` : a beginning of the path leads to the place;
* `Disk.standing?_write_below` : what stands after a file was written stood before, or is passed,
  or leads to the file;
* `Disk.not_passes_of_write` : **no file is written at a place that its directory's path passes**;
* `Disk.inner_of_missing` : a path leaves no place at which nothing stands, unless it climbs.
-/

namespace ServiceScaffold

/-- Neither trail leads to the other. -/
def Trail.Apart (a b : Trail) : Prop := ¬a <+: b ∧ ¬b <+: a

theorem Trail.Apart.symm {a b : Trail} (h : Trail.Apart a b) : Trail.Apart b a := ⟨h.2, h.1⟩

theorem Trail.Apart.ne {a b : Trail} (h : Trail.Apart a b) : a ≠ b :=
  fun heq => h.1 (heq ▸ List.prefix_rfl)

instance (a b : Trail) : Decidable (Trail.Apart a b) :=
  inferInstanceAs (Decidable (¬a <+: b ∧ ¬b <+: a))

namespace Disk

variable {d d' : Disk} {t : Trail} {p out : FilePath} {b : ByteArray} {e : DiskEntry}
  {pre cs more : List Component}

/-- A beginning of the path leads to the place. -/
def passes (d : Disk) (p : FilePath) (t : Trail) : Bool :=
  p.components.inits.any fun steps => trailFrom d.home steps == t

theorem passes_iff : d.passes p t = true ↔ ∃ pre, pre <+: p.components ∧
    trailFrom d.home pre = t := by
  simp [passes, List.any_eq_true]

theorem KeepsKinds.passes (h : d.KeepsKinds d') (p : FilePath) (t : Trail) :
    d'.passes p t = d.passes p t := by
  rw [Disk.passes, h.home, Disk.passes]

/-- Nothing stands in the directory to which the path leads. -/
def IsVacant (d : Disk) (p : FilePath) : Prop :=
  ∀ below, below ≠ [] → d.standing? (d.trailOf p ++ below) = none

/-- Neither directory lies in the other, and making the second does not open a way to the first. -/
structure IsApart (d : Disk) (dir out : FilePath) : Prop where
  apart : Trail.Apart (d.trailOf dir) (d.trailOf out)
  /-- A path that climbs out of a missing directory stays closed, at a place that is neither passed
  by the other path nor lies below it. -/
  closed : d.climbs dir = true → ∃ pre rest, dir.components = pre ++ rest ∧ rest ≠ [] ∧
    d.standing? (trailFrom d.home pre) = none ∧ d.passes out (trailFrom d.home pre) = false ∧
    ¬d.trailOf out <+: trailFrom d.home pre

theorem trailOf_of_components (h : p.components = out.components ++ more)
    (hmore : more.all Component.isInner = true) :
    d.trailOf p = d.trailOf out ++ more.filterMap Component.name? := by
  rw [trailOf, h, trailFrom_append, trailFrom_inner _ hmore, ← trailOf]

/-- What stands after a file was written stood before, or is passed, or leads to the file. -/
theorem standing?_write_below (h : d.write p b = (.ok (), d'))
    (hp : p.components = out.components ++ more) (hmore : more.all Component.isInner = true)
    (ht : d'.standing? t = some e) :
    (∃ e, d.standing? t = some e) ∨ d.passes out t = true ∨
      d.trailOf out <+: t ∧ t <+: d.trailOf p := by
  obtain ⟨mid, hgrows, -, hdir, -, rfl⟩ := write_ok h
  have htrail := trailOf_of_components (d := d) hp hmore
  rw [standing?_put mid (ne_nil_of_not_hasDirectory hdir)] at ht
  split_ifs at ht with hself
  · subst hself
    exact .inr (.inr ⟨htrail ▸ List.prefix_append _ _, List.prefix_rfl⟩)
  · obtain hold | ⟨-, pre, hpre, rfl⟩ := hgrows.made ht
    · exact .inl ⟨e, hold⟩
    -- a directory that was made: on the way to the output directory, or inside
    · have hsteps : pre <+: p.components := hpre.trans (List.dropLast_prefix _)
      have hout : out.components <+: p.components := hp ▸ List.prefix_append _ _
      obtain hpassed | ⟨inside, rfl⟩ := List.prefix_or_prefix_of_prefix hsteps hout
      · exact .inr (.inl (passes_iff.2 ⟨pre, hpassed, rfl⟩))
      · right; right
        rw [hp] at hsteps
        have hinside : inside <+: more := (List.prefix_append_right_inj _).1 hsteps
        have hinner : inside.all Component.isInner = true := List.all_eq_true.2 fun c hc =>
          List.all_eq_true.1 hmore c (hinside.subset hc)
        rw [htrail, trailFrom_append, trailFrom_inner _ hinner, ← trailOf]
        exact ⟨List.prefix_append _ _, (List.prefix_append_right_inj _).2 (hinside.filterMap _)⟩

/-- Files outside of the directory are the same after a file was written. -/
theorem file_write_outside (h : d.write p b = (.ok (), d'))
    (hp : p.components = out.components ++ more) (hmore : more.all Component.isInner = true)
    (ht : ¬d.trailOf out <+: t) {b' : ByteArray} :
    d'.standing? t = some (.file b') ↔ d.standing? t = some (.file b') := by
  have hne : t ≠ d.trailOf p := by
    rintro rfl
    exact ht (trailOf_of_components hp hmore ▸ List.prefix_append _ _)
  refine ⟨fun hs => ?_, fun hs => write_frame h hs hne⟩
  obtain ⟨mid, hgrows, -, hdir, -, rfl⟩ := write_ok h
  rw [standing?_put mid (ne_nil_of_not_hasDirectory hdir), if_neg hne] at hs
  obtain hold | ⟨hdirectory, -⟩ := hgrows.made hs
  · exact hold
  · cases hdirectory

/-- Nothing is read by way of a place at which nothing stands. -/
theorem readBytes_ne_ok (hd : d.IsTree) (hp : p.components = pre ++ more) (hne : more ≠ [])
    (hnone : d.standing? (trailFrom d.home pre) = none) : d.readBytes p ≠ .ok b := by
  intro hread
  obtain ⟨⟨x, hx⟩, -⟩ := readBytes_eq_ok_iff.1 hread
  obtain ⟨r, hr⟩ := hasDirectory_of_follow hd hd.home hne (hp ▸ (place_ok hx).2)
  rw [hnone] at hr
  cases hr

/-- No file is written at a place that its directory's path passes. -/
theorem not_passes_of_write (h : d.write p b = (.ok (), d')) (hd : d.IsTree)
    (hp : p.components = out.components ++ more) (hne : more ≠ []) :
    d.passes out (d.trailOf p) = false := by
  obtain ⟨mid, hgrows, ⟨x, hplace⟩, hdir, -, rfl⟩ := write_ok h
  rw [← Bool.not_eq_true]
  intro hpasses
  obtain ⟨pre, ⟨rest, hrest⟩, htrail⟩ := passes_iff.1 hpasses
  have hmid := hgrows.tree hd
  have hfollow := (place_ok hplace).2
  rw [hp, ← hrest, List.append_assoc] at hfollow
  -- the path goes on from the place, so that a directory stands there when the file is written
  have hdirectory := hasDirectory_of_follow hmid hmid.home (by simp [hne]) hfollow
  rw [hgrows.home, htrail] at hdirectory
  exact hdir hdirectory

/-- A path leaves no place at which nothing stands, unless it climbs out of a missing directory. -/
theorem inner_of_missing (hd : d.IsTree) (ht : d.HasDirectory t)
    (hc : d.climbsFrom t (pre ++ cs) = false)
    (hf : d.follow t (pre ++ cs) ≠ .error .notDirectory)
    (hnone : d.standing? (trailFrom t pre) = none) : cs.all Component.isInner = true := by
  induction pre generalizing t with
  | nil =>
    obtain ⟨r, hr⟩ := ht
    rw [trailFrom_nil, hr] at hnone
    cases hnone
  | cons c pre ih =>
    cases c with
    | root => exact ih d.hasDirectory_nil hc hf hnone
    | current => exact ih ht hc hf hnone
    | parent => exact ih (hd.dropLast ht) hc hf hnone
    | normal name =>
      rw [List.cons_append] at hc hf
      rcases hs : d.standing? (t ++ [name]) with _ | ⟨bytes | r⟩
      -- the first missing name: the path goes down only from there
      · have hinner : (pre ++ cs).all Component.isInner = true := by
          simpa [climbsFrom, hs] using hc
        rw [List.all_append, Bool.and_eq_true] at hinner
        exact hinner.2
      -- a file: it ends the path
      · have hlast : pre ++ cs = [] := by
          by_contra hne
          obtain ⟨c, rest, hrest⟩ := List.exists_cons_of_ne_nil hne
          exact hf (by simp [hrest, follow, hs])
        simp [(List.append_eq_nil_iff.1 hlast).2]
      · refine ih (t := t ++ [name]) ⟨r, hs⟩ ?_ ?_ hnone
        · simpa [climbsFrom, hs] using hc
        · simpa [follow, hs] using hf

end Disk

end ServiceScaffold
