import ServiceScaffold.Proofs.Store.Walking

/-!
# Files in memory that stand in for a disk

A store in memory has no directories.  Here it holds the files of a tree on a disk, and is asked
what the disk is asked.

* `MemoryStore.Mirrors` : the store holds the texts of all files below a directory, and no others;
* `MemoryStore.Mirrors.isFile_eq` : **below the directory, a file stands on the disk where one
  stands in memory, unless the path can only lead to a directory**;
* `MemoryStore.Mirrors.read_eq` : a file that stands on both reads the same from both;
* `MemoryStore.Mirrors.files_eq` : the files that both list below a directory stand at the same
  places.
-/

namespace ServiceScaffold

namespace Disk

variable {d : Disk} {base p q : FilePath} {names : List (List Char)}

/-- What stands where a path leads that goes down from a directory. -/
theorem IsTree.isFile_names (hd : d.IsTree) (hbase : d.isDirectory base = true)
    (hq : q.components = base.components ++ names.map .normal) : d.isFile q = true ↔
      (∃ b, d.standing? (d.trailOf base ++ names) = some (.file b)) ∧
        wantsDirectory q = false := by
  obtain ⟨r, hstat⟩ := stat_of_isDirectory hbase
  rw [isFile_iff_stat]
  constructor
  · rintro ⟨u, b, hfile⟩
    obtain ⟨⟨-, hs⟩, hplain⟩ := (hd.stat_names hstat hq).1 hfile
    exact ⟨⟨b, hs⟩, hplain rfl⟩
  · rintro ⟨⟨b, hs⟩, hplain⟩
    exact ⟨_, b, (hd.stat_names hstat hq).2 ⟨⟨rfl, hs⟩, fun _ => hplain⟩⟩

end Disk

namespace MemoryStore

/-- The store holds the texts of all files that stand below a directory of the disk, and no
others. -/
structure Mirrors (m : MemoryStore) (d : Disk) (base : FilePath) : Prop where
  isText {names : List (List Char)} {b : ByteArray} :
    d.standing? (d.trailOf base ++ names) = some (.file b) → ∃ text : String, b = text.toUTF8
  contents {q : FilePath} {text : String} : m.contents q = some text ↔
    ∃ names : List (List Char), q.components = base.components ++ names.map .normal ∧
      d.standing? (d.trailOf base ++ names) = some (.file text.toUTF8)

namespace Mirrors

variable {m m' : MemoryStore} {d : Disk} {base root q : FilePath} {names : List (List Char)}

theorem isFile_iff (h : m.Mirrors d base) : FileStore.isFile m q = true ↔
    ∃ (names : List (List Char)) (b : ByteArray),
      q.components = base.components ++ names.map .normal ∧
        d.standing? (d.trailOf base ++ names) = some (.file b) := by
  have hsome : FileStore.isFile m q = true ↔ ∃ text, m.contents q = some text :=
    Option.isSome_iff_exists
  rw [hsome]
  constructor
  · rintro ⟨text, htext⟩
    obtain ⟨names, hq, hs⟩ := h.contents.1 htext
    exact ⟨names, _, hq, hs⟩
  · rintro ⟨names, b, hq, hs⟩
    obtain ⟨text, rfl⟩ := h.isText hs
    exact ⟨text, h.contents.2 ⟨names, hq, hs⟩⟩

/-- Reading a file leaves what the store holds. -/
theorem read (h : m.Mirrors d base) (q : FilePath) : (m.read q).2.Mirrors d base :=
  ⟨h.isText, fun {_ _} => by rw [contents_read, h.contents]⟩

/-- Two stores that hold the files of one tree find the same files. -/
theorem isFile_congr (h : m.Mirrors d base) (h' : m'.Mirrors d base) :
    FileStore.isFile m q = FileStore.isFile m' q :=
  Bool.eq_iff_iff.2 (h.isFile_iff.trans h'.isFile_iff.symm)

/-- **Below the directory**, a file stands on the disk where one stands in memory, unless the path
can only lead to a directory. -/
theorem isFile_eq (h : m.Mirrors d base) (hd : d.IsTree) (hbase : d.isDirectory base = true)
    (hq : FilePath.IsBelow base q) :
    FileStore.isFile d q = (FileStore.isFile m q && !Disk.wantsDirectory q) := by
  obtain ⟨more, hq, hmore⟩ := hq
  obtain ⟨r, hstat⟩ := Disk.stat_of_isDirectory hbase
  obtain ⟨names, rfl⟩ :=
    FilePath.exists_names_of_isInner (Disk.stat_eq_ok_iff.1 hstat).1 hq hmore
  have hnames {names' : List (List Char)}
      (hq' : q.components = base.components ++ names'.map .normal) : names' = names := by
    rw [hq] at hq'
    exact (List.map_injective_iff.2 (fun _ _ => Component.normal.inj)
      (List.append_cancel_left hq')).symm
  have hfile : FileStore.isFile d q = d.isFile q := rfl
  rw [Bool.eq_iff_iff, hfile, hd.isFile_names hbase hq, Bool.and_eq_true, h.isFile_iff,
    Bool.not_eq_true']
  refine and_congr_left fun _ => ⟨fun ⟨b, hs⟩ => ⟨names, b, hq, hs⟩, ?_⟩
  rintro ⟨names', b, hq', hs⟩
  obtain rfl := hnames hq'
  exact ⟨b, hs⟩

/-- A file that stands on both reads the same from both. -/
theorem read_eq (h : m.Mirrors d base) (hd : d.IsTree) (hbase : d.isDirectory base = true)
    (hfile : FileStore.isFile m q = true) (hplain : Disk.wantsDirectory q = false) :
    ∃ text, (FileStore.read m q).1 = .ok text ∧ FileStore.read d q = (.ok text, d) := by
  obtain ⟨text, htext⟩ := Option.isSome_iff_exists.1 hfile
  obtain ⟨names, hq, hs⟩ := h.contents.1 htext
  obtain ⟨r, hstat⟩ := Disk.stat_of_isDirectory hbase
  have hstat' := (hd.stat_names hstat hq).2 ⟨⟨rfl, hs⟩, fun _ => hplain⟩
  have hbytes : d.readBytes q = .ok text.toUTF8 := by rw [Disk.readBytes, hstat']
  refine ⟨text, ?_, ?_⟩
  · exact (result_read m q).trans (by rw [htext])
  · exact Prod.ext (Disk.readText_of_readBytes hbytes) rfl

theorem exists_mem_files : (∃ p ∈ m.files root, p.same q = true) ↔
    FileStore.isFile m q = true ∧ root.components <+: q.components := by
  have hsome : FileStore.isFile m q = true ↔ ∃ p ∈ m.texts.map Prod.fst, q.same p = true :=
    lookup_isSome
  have hbelow (p : FilePath) : (FilePath.componentsBelow? root p).isSome = true ↔
      root.components <+: p.components := by
    rw [FilePath.componentsBelow?, Option.isSome_iff_exists]
    exact exists_congr fun _ => List.isPrefixOf?_eq_some_iff_append_eq
  rw [hsome]
  simp only [files, List.mem_filter, hbelow, FilePath.same_iff]
  constructor
  · rintro ⟨p, ⟨hp, hroot⟩, hsame⟩
    exact ⟨⟨p, hp, hsame.symm⟩, hsame ▸ hroot⟩
  · rintro ⟨⟨p, hp, hsame⟩, hroot⟩
    exact ⟨p, ⟨hp, hsame ▸ hroot⟩, hsame.symm⟩

/-- The files that both list below a directory stand at the same places. -/
theorem files_eq (h : m.Mirrors d base) (hd : d.IsProper) (hbase : d.isDirectory base = true)
    (hr : d.IsReadable (d.trailOf base)) (hroot : FilePath.GoesDown base root)
    (hdir : d.isDirectory root = true) :
    ∃ paths, FileStore.files d root = .ok paths ∧
      ∀ q, (∃ p ∈ paths, p.same q = true) ↔ ∃ p ∈ m.files root, p.same q = true := by
  obtain ⟨way, hway⟩ := hroot
  obtain ⟨r, hstat⟩ := Disk.stat_of_isDirectory hbase
  obtain ⟨r', hstat'⟩ := Disk.stat_of_isDirectory hdir
  obtain ⟨⟨htrail, -⟩, -⟩ := (hd.toIsTree.stat_names hstat hway).1 hstat'
  have hbelow : d.trailOf base <+: d.trailOf root := htrail ▸ List.prefix_append _ _
  obtain ⟨-, hfiles⟩ | ⟨hdenied, -⟩ := hd.files_eq hstat'
  case inr => exact absurd (fun t ht => hr t (hbelow.trans ht)) hdenied
  refine ⟨_, hfiles, fun q => ?_⟩
  rw [exists_mem_files, h.isFile_iff]
  constructor
  · rintro ⟨p, hp, hsame⟩
    obtain ⟨names, b, hs, rfl⟩ := ((hd.listing_spec hstat').2 p).1 hp
    rw [FilePath.same_iff, hd.components_descend root hs] at hsame
    refine ⟨⟨way ++ names, b, ?_, ?_⟩, ⟨_, hsame⟩⟩
    · rw [← hsame, hway, List.map_append, List.append_assoc]
    · rwa [← List.append_assoc, ← htrail]
  · rintro ⟨⟨names, b, hq, hs⟩, hprefix⟩
    rw [hq, hway, List.prefix_append_right_inj] at hprefix
    obtain ⟨rest, rfl⟩ := (List.prefix_map_iff_of_injective
      (fun _ _ => Component.normal.inj)).1 hprefix
    rw [← List.append_assoc, ← htrail] at hs
    refine ⟨root.descend rest, ((hd.listing_spec hstat').2 _).2 ⟨rest, b, hs, rfl⟩, ?_⟩
    rw [FilePath.same_iff, hd.components_descend root hs, hq, hway, List.map_append,
      List.append_assoc]

end Mirrors

end MemoryStore

end ServiceScaffold
