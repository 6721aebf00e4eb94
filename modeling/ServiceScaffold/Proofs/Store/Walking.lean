import ServiceScaffold.Proofs.Store.Memory
import ServiceScaffold.Proofs.Store.Worklist

/-!
# What stores list

* `Disk.IsProper.listed` : what a disk lists are files, at paths that go down from the directory;
* `Disk.files_of_not_isDirectory` : nothing is listed where no directory stands;
* `FileStore.IsLawful` : a store lists files, and a place has the same file under all paths that
  may lead to one (`Disk.isFile_of_same`), in memory even under those that cannot
  (`MemoryStore.isFile_of_same`).
-/

namespace ServiceScaffold

namespace Disk

variable {d : Disk} {dir : FilePath} {paths : List FilePath}

/-- Where no directory stands, nothing is listed. -/
theorem files_of_not_isDirectory (h : ¬d.isDirectory dir = true) :
    ∃ x, d.files dir = .error x := by
  have hread : ∃ x, d.readDirectory dir = .error x := by
    rcases hs : d.stat dir with x | ⟨u, b | r⟩
    · exact ⟨x, by rw [readDirectory, hs]⟩
    · exact ⟨.notDirectory, by rw [readDirectory, hs]⟩
    · exact absurd (by rw [isDirectory, hs]) h
  obtain ⟨x, hx⟩ := hread
  exact ⟨x, by rw [files, walk, hx]; rfl⟩

theorem stat_of_isDirectory (h : d.isDirectory dir = true) :
    ∃ r, d.stat dir = .ok (d.trailOf dir, .directory r) := by
  unfold isDirectory at h
  split at h
  · rename_i u r hstat
    obtain ⟨-, hfollow, -⟩ := stat_eq_ok_iff.1 hstat
    obtain ⟨rfl, -⟩ := DiskPlace.mk.inj (follow_ok hfollow)
    exact ⟨r, hstat⟩
  · cases h

/-- What is listed are files, at paths that go down from the directory. -/
theorem IsProper.listed (hd : d.IsProper) (h : d.files dir = .ok paths) :
    ∀ f ∈ paths, d.isFile f = true ∧ FilePath.GoesDown dir f := by
  by_cases hdir : d.isDirectory dir = true
  · obtain ⟨r, hstat⟩ := stat_of_isDirectory hdir
    obtain ⟨-, hfiles⟩ | ⟨-, hfiles⟩ := hd.files_eq hstat
    · obtain rfl := Except.ok.inj (hfiles.symm.trans h)
      intro f hf
      obtain ⟨names, b, hs, rfl⟩ := ((hd.listing_spec hstat).2 f).1 hf
      exact ⟨isFile_iff_stat.2 ⟨_, b, hd.stat_descend hstat hs⟩, names,
        hd.components_descend dir hs⟩
    · cases hfiles.symm.trans h
  · obtain ⟨x, hx⟩ := files_of_not_isDirectory hdir
    cases hx.symm.trans h

end Disk

/-! ### Laws of listing -/

/-- A store lists files, and a place has the same file under all paths that may lead to one. -/
structure FileStore.IsLawful {σ : Type} [FileStore σ] (s : σ) : Prop where
  listed {dir : FilePath} {paths : List FilePath} (h : FileStore.files s dir = .ok paths) :
    ∀ p ∈ paths, FileStore.isFile s p = true
  same {p q : FilePath} (h : FileStore.isFile s p = true) (hsame : p.same q = true)
    (hplain : Disk.wantsDirectory q = false) : FileStore.isFile s q = true

/-- A disk has the same file under all paths to a place that may lead to one. -/
theorem Disk.isFile_of_same {d : Disk} {p q : FilePath} (h : d.isFile p = true)
    (hsame : p.same q = true) (hplain : wantsDirectory q = false) : d.isFile q = true := by
  obtain ⟨u, b, hstat⟩ := isFile_iff_stat.1 h
  obtain ⟨hne, hfollow, -⟩ := stat_eq_ok_iff.1 hstat
  rw [FilePath.same_iff] at hsame
  refine isFile_iff_stat.2 ⟨u, b, stat_eq_ok_iff.2 ⟨?_, hsame ▸ hfollow, fun _ => hplain⟩⟩
  exact FilePath.chars_ne_nil (hsame ▸ FilePath.components_ne_nil hne)

/-- A path that can only lead to a directory leads to no file. -/
theorem Disk.wantsDirectory_of_isFile {d : Disk} {p : FilePath} (h : d.isFile p = true) :
    wantsDirectory p = false := by
  obtain ⟨u, b, hstat⟩ := isFile_iff_stat.1 h
  exact (stat_eq_ok_iff.1 hstat).2.2 rfl

theorem Disk.IsProper.isLawful {d : Disk} (hd : d.IsProper) : FileStore.IsLawful d :=
  ⟨fun h p hp => (hd.listed h p hp).1, isFile_of_same⟩

namespace MemoryStore

theorem lookup_isSome {α : Type} {q : FilePath} {entries : List (FilePath × α)} :
    (lookup q entries).isSome = true ↔ ∃ p ∈ entries.map Prod.fst, q.same p = true := by
  induction entries with
  | nil => simp [lookup]
  | cons entry entries ih =>
    obtain ⟨p, v⟩ := entry
    by_cases hp : q.same p = true
    · simp [lookup, hp]
    · simpa [lookup, hp] using ih

theorem isFile_iff {s : MemoryStore} {p : FilePath} : FileStore.isFile s p = true ↔
    ∃ q ∈ s.texts.map Prod.fst, p.same q = true := lookup_isSome

/-- A store in memory has the same file under all paths to a place. -/
theorem isFile_of_same {s : MemoryStore} {p q : FilePath} (h : FileStore.isFile s p = true)
    (hsame : p.same q = true) : FileStore.isFile s q = true := by
  obtain ⟨r, hr, hpr⟩ := isFile_iff.1 h
  exact isFile_iff.2 ⟨r, hr, FilePath.same_trans (FilePath.same_symm hsame) hpr⟩

theorem isLawful (s : MemoryStore) : FileStore.IsLawful s := by
  refine ⟨fun {dir paths} h p hp => ?_, fun h hsame _ => isFile_of_same h hsame⟩
  obtain rfl : s.files dir = paths := Except.ok.inj h
  exact isFile_iff.2 ⟨p, (List.mem_filter.1 hp).1, FilePath.same_self p⟩

end MemoryStore

end ServiceScaffold
