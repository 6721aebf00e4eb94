import ServiceScaffold.Proofs.FilePath.Order
import ServiceScaffold.Proofs.Store.Below

/-!
# Walking through directories

A disk lists the files below a directory by reading one pending directory after the other.  A
directory that is read adds its files to those that were found, and puts its directories before the
pending ones.  In which order it delivers its entries is left open.

* `Disk.pathTo` : the path by which a directory leads to what stands below it;
* `Disk.Walk.Step`, `Disk.Walk.result?` : a directory is read, and what a walk results in;
* `Disk.Walk.Accounts` : what a walk has done and what it has ahead make up what stands below the
  first directory;
* `Disk.IsProper.accounts_step`, `Disk.IsProper.accounts_reads` : reading a directory keeps the
  account, and so does a whole walk;
* `Disk.IsProper.exists_reads_files` : what a disk lists is what such a walk results in;
* `Disk.IsProper.files_exact` : **every walk ends, and with the same result**: all files below the
  directory, each once and in order, or the failure to read a directory below it.
-/

namespace ServiceScaffold

open scoped List

namespace Disk

variable {d : Disk} {t u root : Trail} {p dir : FilePath} {r : Bool}

/-! ### The entries of a directory -/

theorem isFile_iff_stat : d.isFile p = true ↔ ∃ u b, d.stat p = .ok (u, .file b) := by
  unfold isFile
  rcases d.stat p with x | ⟨u, b | r⟩ <;> simp

/-- The path of an entry from that of its directory. -/
def entryPath (dir : FilePath) (u : Trail) : FilePath := dir.join ⟨u.getLastD []⟩

theorem filePaths_children (d : Disk) (t : Trail) (dir : FilePath) :
    filePaths dir (d.children t) = (d.childTrails DiskEntry.isFile t).map (entryPath dir) ∧
      directoryPaths dir (d.children t) =
        (d.childTrails DiskEntry.isDirectory t).map (entryPath dir) := by
  unfold children childTrails
  induction d.entries with
  | nil => exact ⟨rfl, rfl⟩
  | cons x entries ih =>
    obtain ⟨u, e⟩ := x
    obtain rfl | ⟨init, name, rfl⟩ := List.eq_nil_or_concat' u
    · simpa [List.filterMap_cons] using ih
    · by_cases hinit : init = t
      · subst hinit
        cases e <;>
          simpa [filePaths, directoryPaths, DiskEntry.isFile, DiskEntry.isDirectory, entryPath]
            using ih
      · simpa [hinit] using ih

theorem readDirectory_eq_ok {entries : List (List Char × DiskEntry)}
    (h : d.readDirectory p = .ok entries) :
    ∃ t, d.stat p = .ok (t, .directory true) ∧ entries = d.children t := by
  unfold readDirectory at h
  split at h
  · cases h
  · cases h
  · cases h
  · rename_i t hstat
    exact ⟨t, hstat, (Except.ok.inj h).symm⟩

/-! ### What stands below a directory -/

/-- All directories from one on can be read. -/
def IsReadable (d : Disk) (root : Trail) : Prop :=
  ∀ t, root <+: t → d.standing? t ≠ some (.directory false)

/-- Only what is entered cannot be read. -/
theorem isReadable_iff : d.IsReadable root ↔
    ∀ x ∈ d.entries, root <+: x.1 → d.standing? x.1 ≠ some (.directory false) := by
  refine ⟨fun h x _ => h x.1, fun h t hbelow hs => ?_⟩
  have hstanding := hs
  unfold standing? at hs
  split_ifs at hs
  · cases hs
  · obtain ⟨x, hfind, -⟩ := Option.map_eq_some_iff.1 hs
    obtain rfl : x.1 = t := by simpa using List.find?_some hfind
    exact h x (List.mem_of_find?_eq_some hfind) hbelow hstanding

instance (d : Disk) (root : Trail) : Decidable (d.IsReadable root) :=
  decidable_of_iff _ isReadable_iff.symm

/-- The path by which a directory, at the trail `root`, leads to a trail below it. -/
def pathTo (dir : FilePath) (root u : Trail) : FilePath := dir.descend (u.drop root.length)

theorem pathTo_append (dir : FilePath) (root : Trail) (names : List (List Char)) :
    pathTo dir root (root ++ names) = dir.descend names := by
  rw [pathTo, List.drop_left]

/-- The trails of a directory and of those below it. -/
def directoriesFrom (d : Disk) (root : Trail) : List Trail :=
  root :: d.trailsBelow DiskEntry.isDirectory root

theorem length_directoriesFrom_le (d : Disk) (root : Trail) :
    (d.directoriesFrom root).length ≤ d.entries.length + 1 := by
  rw [directoriesFrom, List.length_cons, trailsBelow, List.length_map]
  exact Nat.succ_le_succ (List.length_filter_le _ _)

/-- The paths of all files below a directory, in their order. -/
def listing (d : Disk) (dir : FilePath) (root : Trail) : List FilePath :=
  FilePath.sort ((d.trailsBelow DiskEntry.isFile root).map (pathTo dir root))

namespace IsProper

variable (hd : d.IsProper)

include hd

/-- The directory at the end of a path stands there. -/
theorem standing_of_stat {e : DiskEntry} (hdir : d.stat dir = .ok (root, .directory r))
    (hp : d.stat dir = .ok (t, e)) : d.standing? root = some e := by
  have hnames : dir.components = dir.components ++ ([] : List (List Char)).map .normal := by simp
  have hs := ((hd.toIsTree.stat_names hdir hnames).1 hp).1.2
  rwa [List.append_nil] at hs

/-- What stands below a directory is where its path leads. -/
theorem stat_descend {names : List (List Char)} {e : DiskEntry}
    (hdir : d.stat dir = .ok (root, .directory r))
    (hs : d.standing? (root ++ names) = some e) :
    d.stat (dir.descend names) = .ok (root ++ names, e) := by
  induction names using List.reverseRecOn generalizing e with
  | nil =>
    rw [List.append_nil] at hs ⊢
    rw [hd.standing_of_stat hdir hdir] at hs
    obtain rfl := Option.some.inj hs
    exact hdir
  | append_singleton names name ih =>
    rw [← List.append_assoc] at hs ⊢
    obtain ⟨r', hup⟩ := hd.hasDirectory_of_append (List.cons_ne_nil name []) hs
    rw [FilePath.descend_concat]
    exact hd.stat_join (ih hup) hs

theorem mem_directoriesFrom (hroot : d.standing? root = some (.directory r)) :
    t ∈ d.directoriesFrom root ↔ root <+: t ∧ ∃ r, d.standing? t = some (.directory r) := by
  rw [directoriesFrom, List.mem_cons, hd.mem_trailsBelow]
  constructor
  · rintro (rfl | ⟨e, hs, hkind, name, rest, rfl⟩)
    · exact ⟨List.prefix_rfl, r, hroot⟩
    · cases e with
      | file b => cases hkind
      | directory r' => exact ⟨List.prefix_append _ _, r', hs⟩
  · rintro ⟨⟨names, rfl⟩, r', hs⟩
    cases names with
    | nil => exact .inl (List.append_nil root)
    | cons name rest => exact .inr ⟨_, hs, rfl, name, rest, rfl⟩

/-- The path to what stands below a directory goes down by its names. -/
theorem components_descend {names : List (List Char)} {e : DiskEntry} (dir : FilePath)
    (hs : d.standing? (root ++ names) = some e) :
    (dir.descend names).components = dir.components ++ names.map .normal :=
  dir.components_descend fun name hname =>
    hd.isName_of_standing hs name (List.mem_append_right _ hname)

/-- The components of the paths to what stands below a directory tell the trails apart. -/
theorem nodup_components (dir : FilePath) (root : Trail) :
    (((d.trailsBelow DiskEntry.isFile root).map (pathTo dir root)).map
      FilePath.components).Nodup := by
  rw [List.map_map]
  refine (hd.nodup_trailsBelow _ root).map_on fun u hu v hv heq => ?_
  obtain ⟨e, hs, -, name, rest, rfl⟩ := (hd.mem_trailsBelow _).1 hu
  obtain ⟨e', hs', -, name', rest', rfl⟩ := (hd.mem_trailsBelow _).1 hv
  simp only [Function.comp_apply, pathTo_append] at heq
  rw [hd.components_descend dir hs, hd.components_descend dir hs',
    List.append_cancel_left_eq] at heq
  rw [List.map_injective_iff.2 (fun _ _ => Component.normal.inj) heq]

/-- The listing is strictly increasing, and holds the paths to the files below the directory. -/
theorem listing_spec (hdir : d.stat dir = .ok (root, .directory r)) :
    ((d.listing dir root).Pairwise fun p q => p.before q = true) ∧
      ∀ p, p ∈ d.listing dir root ↔
        ∃ names b, d.standing? (root ++ names) = some (.file b) ∧ p = dir.descend names := by
  refine ⟨FilePath.pairwise_before_sort (hd.nodup_components dir root), fun p => ?_⟩
  rw [listing, (FilePath.sort_perm _).mem_iff, List.mem_map]
  constructor
  · rintro ⟨u, hu, rfl⟩
    obtain ⟨e, hs, hkind, name, rest, rfl⟩ := (hd.mem_trailsBelow _).1 hu
    cases e with
    | file b => exact ⟨name :: rest, b, hs, pathTo_append _ _ _⟩
    | directory r' => cases hkind
  · rintro ⟨names, b, hs, rfl⟩
    cases names with
    | nil =>
      rw [List.append_nil, hd.standing_of_stat hdir hdir] at hs
      cases hs
    | cons name rest =>
      exact ⟨_, (hd.mem_trailsBelow _).2 ⟨_, hs, rfl, name, rest, rfl⟩, pathTo_append _ _ _⟩

/-- The path of an entry of a directory is the path to the entry. -/
theorem entryPath_pathTo {kind : DiskEntry → Bool} (hbelow : root <+: t)
    (hu : u ∈ d.childTrails kind t) : entryPath (pathTo dir root t) u = pathTo dir root u := by
  obtain ⟨-, -, -, name, rfl⟩ := (hd.mem_childTrails kind).1 hu
  rw [pathTo, pathTo, List.drop_append_of_le_length hbelow.length_le, FilePath.descend_concat]
  simp [entryPath]

end IsProper

/-! ### Walks -/

/-- The directories that are yet to be read, the next one first, and the files that were found. -/
structure Walk where
  pending : List FilePath
  found : List FilePath

namespace Walk

/-- The walk that has read nothing. -/
def start (dir : FilePath) : Walk := ⟨[dir], []⟩

/-- The next directory is read, and delivers its entries in some order. -/
inductive Step (d : Disk) : Walk → Walk → Prop
  | read {p : FilePath} {pending found : List FilePath}
      {entries delivered : List (List Char × DiskEntry)}
      (hread : d.readDirectory p = .ok entries) (hdelivered : delivered.Perm entries) :
      Step d ⟨p :: pending, found⟩
        ⟨(directoryPaths p delivered).reverse ++ pending, found ++ filePaths p delivered⟩

/-- So many directories are read, one after the other. -/
inductive Reads (d : Disk) : Nat → Walk → Walk → Prop
  | refl (w : Walk) : Reads d 0 w w
  | head {n : Nat} {w w' w'' : Walk} (h : Step d w w') (hrest : Reads d n w' w'') :
      Reads d (n + 1) w w''

/-- What a walk results in that has come to its end: nothing is left to read, or the next directory
cannot be read. -/
def result? (d : Disk) (w : Walk) : Option (Except StoreProblem (List FilePath)) :=
  match w.pending with
  | [] => some (.ok (FilePath.sort w.found))
  | p :: _ =>
    match d.readDirectory p with
    | .error x => some (.error x)
    | .ok _ => none

variable {w w' : Walk} {n : Nat} {read ahead : List Trail}

/-- A walk without a result goes on. -/
theorem exists_step (h : w.result? d = none) : ∃ w', Step d w w' := by
  obtain ⟨pending, found⟩ := w
  unfold result? at h
  split at h
  · cases h
  · rename_i p rest hpending
    obtain rfl : pending = p :: rest := hpending
    split at h
    · cases h
    · rename_i entries hread
      exact ⟨_, .read hread (List.Perm.refl entries)⟩

/-! ### The account of a walk -/

/-- The directories `read` by a walk, those that are pending (`ahead`) and those below them are the
first directory and those below it, each once; and the files that were found and those below the
pending directories are the files below the first one. -/
structure Accounts (d : Disk) (dir : FilePath) (root : Trail) (w : Walk)
    (read ahead : List Trail) : Prop where
  pending : w.pending ~ ahead.map (pathTo dir root)
  directories : read ++ ahead.flatMap d.directoriesFrom ~ d.directoriesFrom root
  readable : ∀ t ∈ read, d.standing? t = some (.directory true)
  files : w.found ++ (ahead.flatMap (d.trailsBelow DiskEntry.isFile)).map (pathTo dir root) ~
    (d.trailsBelow DiskEntry.isFile root).map (pathTo dir root)

theorem accounts_start (d : Disk) (dir : FilePath) (root : Trail) :
    Accounts d dir root (start dir) [] [root] where
  pending := by simp [start, pathTo, FilePath.descend]
  directories := by simp
  readable := by simp
  files := by simp [start]

namespace Accounts

/-- No more directories were read than there are. -/
theorem length_le (h : Accounts d dir root w read ahead) :
    read.length ≤ (d.directoriesFrom root).length := by
  rw [← h.directories.length_eq, List.length_append]
  exact Nat.le_add_right _ _

/-- Fewer directories were read than there are, as long as one is pending. -/
theorem length_lt (h : Accounts d dir root w read ahead) (hw : w.pending ≠ []) :
    read.length < (d.directoriesFrom root).length := by
  obtain ⟨t, ht⟩ := List.exists_mem_of_ne_nil ahead fun hnil => hw (by
    simpa [hnil] using h.pending)
  have hmem : t ∈ ahead.flatMap d.directoriesFrom :=
    List.mem_flatMap.2 ⟨t, ht, List.mem_cons_self⟩
  rw [← h.directories.length_eq, List.length_append]
  exact Nat.lt_add_of_pos_right (List.length_pos_of_mem hmem)

/-- A pending directory is one of those that are ahead. -/
theorem exists_ahead {pending : List FilePath} (h : Accounts d dir root w read ahead)
    (hw : w.pending = p :: pending) :
    ∃ t rest, p = pathTo dir root t ∧ ahead ~ t :: rest ∧
      pending ~ rest.map (pathTo dir root) := by
  have hpending : p :: pending ~ ahead.map (pathTo dir root) := hw ▸ h.pending
  obtain ⟨t, ht, rfl⟩ := List.mem_map.1 (hpending.mem_iff.1 List.mem_cons_self)
  obtain ⟨front, back, rfl⟩ := List.append_of_mem ht
  have hsplit : front ++ t :: back ~ t :: (front ++ back) := List.perm_middle
  exact ⟨t, front ++ back, rfl, hsplit,
    (hpending.trans (hsplit.map (pathTo dir root))).cons_inv⟩

theorem mem_directoriesFrom (h : Accounts d dir root w read ahead) (ht : t ∈ ahead) :
    t ∈ d.directoriesFrom root := by
  refine h.directories.mem_iff.1 (List.mem_append_right _ (List.mem_flatMap.2 ⟨t, ht, ?_⟩))
  exact List.mem_cons_self

end Accounts

end Walk

namespace IsProper

open Walk

variable {w w' : Walk} {n : Nat} {read ahead : List Trail}

variable (hd : d.IsProper) (hdir : d.stat dir = .ok (root, .directory r))

include hd

/-- The directories from one on are itself and those from its own directories on. -/
theorem directoriesFrom_perm (t : Trail) : d.directoriesFrom t ~
    t :: (d.childTrails DiskEntry.isDirectory t).flatMap d.directoriesFrom := by
  have hsplit (ts : List Trail) : ts.flatMap d.directoriesFrom ~
      ts ++ ts.flatMap (d.trailsBelow DiskEntry.isDirectory) := by
    induction ts with
    | nil => exact .nil
    | cons t ts ih =>
      rw [List.flatMap_cons, List.flatMap_cons, directoriesFrom, List.cons_append, List.cons_append]
      refine .cons t ?_
      calc d.trailsBelow DiskEntry.isDirectory t ++ ts.flatMap d.directoriesFrom
        _ ~ d.trailsBelow DiskEntry.isDirectory t ++
            (ts ++ ts.flatMap (d.trailsBelow DiskEntry.isDirectory)) := ih.append_left _
        _ ~ ts ++ (d.trailsBelow DiskEntry.isDirectory t ++
            ts.flatMap (d.trailsBelow DiskEntry.isDirectory)) := List.perm_append_comm_assoc _ _ _
  exact .cons t ((hd.trailsBelow_perm DiskEntry.isDirectory t).trans (hsplit _).symm)

include hdir

/-- A pending path leads to a directory. -/
theorem stat_pathTo (ht : t ∈ d.directoriesFrom root) : root <+: t ∧
    ∃ r, d.stat (pathTo dir root t) = .ok (t, .directory r) ∧
      d.standing? t = some (.directory r) := by
  obtain ⟨⟨names, rfl⟩, r', hs⟩ :=
    (hd.mem_directoriesFrom (hd.standing_of_stat hdir hdir)).1 ht
  refine ⟨List.prefix_append _ _, r', ?_, hs⟩
  rw [pathTo_append]
  exact hd.stat_descend hdir hs

/-- Reading a directory keeps the account: what stands in it is found or put ahead. -/
theorem accounts_step (h : Accounts d dir root w read ahead) (hstep : Step d w w') :
    ∃ t ahead', Accounts d dir root w' (t :: read) ahead' := by
  cases hstep with
  | @read p pending found entries delivered hread hdelivered =>
    obtain ⟨t, rest, rfl, hahead, hpending⟩ := h.exists_ahead rfl
    have ht : t ∈ ahead := hahead.mem_iff.2 List.mem_cons_self
    obtain ⟨hbelow, r', hstat, hs⟩ := hd.stat_pathTo hdir (h.mem_directoriesFrom ht)
    obtain ⟨t', hstat', rfl⟩ := readDirectory_eq_ok hread
    obtain ⟨rfl, rfl⟩ : t = t' ∧ r' = true := by simpa using hstat.symm.trans hstat'
    set children := d.childTrails DiskEntry.isDirectory t with hchildren
    have hentries (kind : DiskEntry → Bool) :
        (d.childTrails kind t).map (entryPath (pathTo dir root t)) =
          (d.childTrails kind t).map (pathTo dir root) :=
      List.map_congr_left fun u hu => hd.entryPath_pathTo hbelow hu
    have hdirectories : directoryPaths (pathTo dir root t) delivered ~
        children.map (pathTo dir root) := by
      rw [hchildren, ← hentries, ← (filePaths_children d t _).2]
      exact hdelivered.filterMap _
    have hfiles : filePaths (pathTo dir root t) delivered ~
        (d.childTrails DiskEntry.isFile t).map (pathTo dir root) := by
      rw [← hentries, ← (filePaths_children d t _).1]
      exact hdelivered.filterMap _
    refine ⟨t, children ++ rest, ?_, ?_, ?_, ?_⟩
    case refine_1 =>
      rw [List.map_append]
      exact ((List.reverse_perm _).trans hdirectories).append hpending
    case refine_2 =>
      calc t :: read ++ (children ++ rest).flatMap d.directoriesFrom
        _ = t :: (read ++ (children.flatMap d.directoriesFrom ++
              rest.flatMap d.directoriesFrom)) := by rw [List.flatMap_append, List.cons_append]
        _ ~ read ++ (t :: children.flatMap d.directoriesFrom ++
              rest.flatMap d.directoriesFrom) := List.perm_middle.symm
        _ ~ read ++ (t :: rest).flatMap d.directoriesFrom :=
            ((hd.directoriesFrom_perm t).symm.append_right _).append_left _
        _ ~ read ++ ahead.flatMap d.directoriesFrom :=
            (hahead.symm.flatMap_right _).append_left _
        _ ~ d.directoriesFrom root := h.directories
    case refine_3 =>
      intro u hu
      obtain rfl | hu := List.mem_cons.1 hu
      · exact hs
      · exact h.readable u hu
    case refine_4 =>
      set below := d.trailsBelow DiskEntry.isFile
      calc found ++ filePaths (pathTo dir root t) delivered ++
            ((children ++ rest).flatMap below).map (pathTo dir root)
        _ ~ found ++ (d.childTrails DiskEntry.isFile t).map (pathTo dir root) ++
              ((children ++ rest).flatMap below).map (pathTo dir root) :=
            (hfiles.append_left _).append_right _
        _ = found ++ (d.childTrails DiskEntry.isFile t ++ children.flatMap below ++
              rest.flatMap below).map (pathTo dir root) := by
            simp only [List.flatMap_append, List.map_append, List.append_assoc]
        _ ~ found ++ ((t :: rest).flatMap below).map (pathTo dir root) :=
            (((hd.trailsBelow_perm DiskEntry.isFile t).symm.append_right _).map _).append_left _
        _ ~ found ++ (ahead.flatMap below).map (pathTo dir root) :=
            ((hahead.symm.flatMap_right _).map _).append_left _
        _ ~ (below root).map (pathTo dir root) := h.files

/-- A walk keeps the account, and reads a directory more with each step. -/
theorem accounts_reads (h : Accounts d dir root w read ahead) (hreads : Reads d n w w') :
    ∃ read' ahead', Accounts d dir root w' read' ahead' ∧ read'.length = read.length + n := by
  induction hreads generalizing read ahead with
  | refl w => exact ⟨read, ahead, h, rfl⟩
  | head hstep _ ih =>
    obtain ⟨t, next, hnext⟩ := hd.accounts_step hdir h hstep
    obtain ⟨read', ahead', h', hlength⟩ := ih hnext
    exact ⟨read', ahead', h', by rw [hlength, List.length_cons]; omega⟩

/-- A walk that keeps the account results in the listing, or fails at a directory that cannot be
read. -/
theorem result_of_accounts {x : Except StoreProblem (List FilePath)}
    (h : Accounts d dir root w read ahead) (hx : w.result? d = some x) :
    d.IsReadable root ∧ x = .ok (d.listing dir root) ∨
      ¬d.IsReadable root ∧ x = .error .denied := by
  obtain ⟨pending, found⟩ := w
  cases pending with
  | nil =>
    obtain rfl : .ok (FilePath.sort found) = x := Option.some.inj hx
    obtain rfl : ahead = [] := List.map_eq_nil_iff.1 h.pending.symm.eq_nil
    refine .inl ⟨fun t hbelow hs => ?_, ?_⟩
    · -- all directories were read
      have ht : t ∈ d.directoriesFrom root :=
        (hd.mem_directoriesFrom (hd.standing_of_stat hdir hdir)).2 ⟨hbelow, _, hs⟩
      have hread := h.directories.mem_iff.2 ht
      rw [List.flatMap_nil, List.append_nil] at hread
      simp [h.readable t hread] at hs
    · have hfound : found ~ (d.trailsBelow DiskEntry.isFile root).map (pathTo dir root) := by
        simpa using h.files
      rw [listing, FilePath.sort_eq_of_perm (hd.nodup_components dir root) hfound]
  | cons p pending =>
    obtain ⟨t, rest, rfl, hahead, -⟩ := h.exists_ahead rfl
    have ht : t ∈ ahead := hahead.mem_iff.2 List.mem_cons_self
    obtain ⟨hbelow, r', hstat, hs⟩ := hd.stat_pathTo hdir (h.mem_directoriesFrom ht)
    cases r' with
    | true => simp [result?, readDirectory, hstat] at hx
    | false =>
      refine .inr ⟨fun hr => hr t hbelow hs, ?_⟩
      simpa [result?, readDirectory, hstat, eq_comm] using hx

end IsProper

/-! ### The listing of a disk -/

/-- The disk walks on until there is a result, unless it may not read so many directories. -/
theorem Walk.reads_walk (d : Disk) (fuel : Nat) (w : Walk) :
    (∃ n w', Reads d n w w' ∧
      w'.result? d = some ((d.walk fuel w.pending w.found).map FilePath.sort)) ∨
      ∃ w', Reads d fuel w w' ∧ w'.pending ≠ [] := by
  induction fuel generalizing w with
  | zero =>
    obtain ⟨pending, found⟩ := w
    cases pending with
    | nil => exact .inl ⟨0, _, .refl _, by simp [result?, walk, Except.map]⟩
    | cons p pending => exact .inr ⟨_, .refl _, List.cons_ne_nil _ _⟩
  | succ fuel ih =>
    obtain ⟨pending, found⟩ := w
    cases pending with
    | nil => exact .inl ⟨0, _, .refl _, by simp [result?, walk, Except.map]⟩
    | cons p pending =>
      rcases hread : d.readDirectory p with x | entries
      · exact .inl ⟨0, _, .refl _, by simp [result?, walk, hread, Except.map]⟩
      · -- the entries are delivered in the order of the disk
        have hstep : Step d ⟨p :: pending, found⟩
            ⟨(directoryPaths p entries).reverse ++ pending, found ++ filePaths p entries⟩ :=
          .read hread (.refl entries)
        obtain ⟨n, w', hreads, hresult⟩ | ⟨w', hreads, hpending⟩ := ih _
        · exact .inl ⟨n + 1, w', .head hstep hreads, by rw [hresult, walk, hread]⟩
        · exact .inr ⟨w', .head hstep hreads, hpending⟩

namespace IsProper

open Walk

variable (hd : d.IsProper) (hdir : d.stat dir = .ok (root, .directory r))

include hd hdir

/-- What a disk lists is what a walk results in. -/
theorem exists_reads_files : ∃ n w, Reads d n (start dir) w ∧ w.result? d = some (d.files dir) := by
  obtain hresult | ⟨w, hreads, hpending⟩ := reads_walk d (d.entries.length + 1) (start dir)
  · exact hresult
  · -- as many directories as may be read are there, and one of them is still pending
    obtain ⟨read, ahead, h, hlength⟩ :=
      hd.accounts_reads hdir (accounts_start d dir root) hreads
    have hmore := h.length_lt hpending
    have hfew := d.length_directoriesFrom_le root
    rw [hlength, List.length_nil] at hmore
    omega

/-- A disk lists all files below a directory, or fails if a directory there cannot be read. -/
theorem files_eq : d.IsReadable root ∧ d.files dir = .ok (d.listing dir root) ∨
    ¬d.IsReadable root ∧ d.files dir = .error .denied := by
  obtain ⟨n, w, hreads, hresult⟩ := hd.exists_reads_files hdir
  obtain ⟨read, ahead, h, -⟩ := hd.accounts_reads hdir (accounts_start d dir root) hreads
  exact hd.result_of_accounts hdir h hresult

/-- **Listing is complete.**  In whatever order directories deliver their entries, a walk reads no
more directories than there are, and goes on until it has a result, which is always the same.  If
all directories can be read, these are the paths to all files below the directory, in strictly
increasing order; otherwise it is a failure. -/
theorem files_exact :
    (∀ n w, Reads d n (start dir) w →
      n ≤ (d.trailsBelow DiskEntry.isDirectory root).length + 1 ∧
        (w.result? d = none → ∃ w', Step d w w') ∧
        ∀ x, w.result? d = some x → x = d.files dir) ∧
    (d.IsReadable root → ∃ paths, d.files dir = .ok paths ∧
      paths.Pairwise (fun p q => p.before q = true) ∧
      ∀ p, p ∈ paths ↔
        ∃ names b, d.standing? (root ++ names) = some (.file b) ∧ p = dir.descend names) ∧
    (¬d.IsReadable root → d.files dir = .error .denied) := by
  refine ⟨fun n w hreads => ?_, fun hr => ?_, fun hr => ?_⟩
  · obtain ⟨read, ahead, h, hlength⟩ :=
      hd.accounts_reads hdir (accounts_start d dir root) hreads
    refine ⟨?_, exists_step, fun x hx => ?_⟩
    · have hfew := h.length_le
      rwa [hlength, List.length_nil, Nat.zero_add, directoriesFrom, List.length_cons] at hfew
    · obtain ⟨hr, rfl⟩ | ⟨hr, rfl⟩ := hd.result_of_accounts hdir h hx <;>
        obtain ⟨hr', hfiles⟩ | ⟨hr', hfiles⟩ := hd.files_eq hdir
      · exact hfiles.symm
      · exact absurd hr hr'
      · exact absurd hr' hr
      · exact hfiles.symm
  · obtain ⟨-, hfiles⟩ | ⟨hr', -⟩ := hd.files_eq hdir
    · exact ⟨d.listing dir root, hfiles, hd.listing_spec hdir⟩
    · exact absurd hr hr'
  · obtain ⟨hr', -⟩ | ⟨-, hfiles⟩ := hd.files_eq hdir
    · exact absurd hr' hr
    · exact hfiles

end IsProper

/-- A disk with a directory that can be read, and one with a directory below that cannot. -/
def lockedDisk : Disk where
  entries := [(["t".toList], .directory true),
    (["t".toList, "b.txt".toList], .file "2".toUTF8),
    (["t".toList, "b".toList], .directory true),
    (["t".toList, "b".toList, "z".toList], .file "1".toUTF8),
    (["t".toList, "b".toList, "e".toList], .directory true),
    (["t".toList, "a".toList], .directory true),
    (["t".toList, "a".toList, "y".toList], .file "0".toUTF8),
    (["u".toList], .directory true),
    (["u".toList, "x".toList], .file "3".toUTF8),
    (["u".toList, "v".toList], .directory false)]
  home := []

/-- The files below one directory are listed, and the other one cannot be listed. -/
theorem files_exact_locked : lockedDisk.IsProper ∧ lockedDisk.IsReadable ["t".toList] ∧
    lockedDisk.files (.ofString "t") =
      .ok [.ofString "t/a/y", .ofString "t/b/z", .ofString "t/b.txt"] ∧
    (∀ p, p ∈ [.ofString "t/a/y", .ofString "t/b/z", .ofString "t/b.txt"] ↔
      ∃ names b, lockedDisk.standing? (["t".toList] ++ names) = some (.file b) ∧
        p = (FilePath.ofString "t").descend names) ∧
    lockedDisk.files (.ofString "u") = .error .denied := by
  have hproper : lockedDisk.IsProper := by decide +kernel
  have hreadable : lockedDisk.IsReadable ["t".toList] := by decide +kernel
  have hlocked : ¬lockedDisk.IsReadable ["u".toList] := by decide +kernel
  have ht : lockedDisk.stat (.ofString "t") = .ok (["t".toList], .directory true) := by
    decide +kernel
  have hu : lockedDisk.stat (.ofString "u") = .ok (["u".toList], .directory true) := by
    decide +kernel
  have hfiles : lockedDisk.files (.ofString "t") =
      .ok [.ofString "t/a/y", .ofString "t/b/z", .ofString "t/b.txt"] := by
    have hwalk : lockedDisk.walk (lockedDisk.entries.length + 1) [.ofString "t"] [] =
        .ok [.ofString "t/b.txt", .ofString "t/a/y", .ofString "t/b/z"] := by decide +kernel
    rw [files, hwalk]
    exact congrArg Except.ok (FilePath.sort_eq (by decide +kernel) (by decide +kernel))
  obtain ⟨paths, hpaths, -, hmem⟩ := (hproper.files_exact ht).2.1 hreadable
  obtain rfl := Except.ok.inj (hfiles.symm.trans hpaths)
  exact ⟨hproper, hreadable, hfiles, hmem, (hproper.files_exact hu).2.2 hlocked⟩

end Disk

end ServiceScaffold
