import ServiceScaffold.Proofs.Store.Mirror
import ServiceScaffold.Proofs.Template.Listing
import ServiceScaffold.Proofs.Template.Sharing

/-!
# An engine over files in memory

What an engine answers over a store in memory that holds the files of a tree, and over the disk with
the tree.  Memory has no directories: it lists what is missing as empty, and finds a file under a
path that can only lead to a directory.

* `Engine.StandsIn` : a workspace in memory holds the tree below the base of the engine;
* `Action.IsPlain` : an action asks for a directory that is there, or for a name under which memory
  finds no file with a slash or a dot after it;
* `Engine.StandsIn.find_eq_iff`, `Engine.StandsIn.namesIn_eq_iff` : **finding and listing agree
  exactly under these conditions**;
* `Engine.StandsIn.step` : a plain action gets the same answer, and memory stands in afterwards;
* `Engine.StandsIn.answers_eq` : so does every sequence of plain actions.
-/

namespace ServiceScaffold.Template

open FilePath (IsBelow GoesDown)

/-- What an engine answers to a sequence of actions. -/
def Engine.answers {σ : Type} [FileStore σ] (e : Engine) (w : Workspace σ) :
    List Action → List (Except Failure Answer)
  | [] => []
  | a :: actions => ((a.job e).on w).1 :: e.answers ((a.job e).on w).2 actions

/-- A second condition changes what is found only if the first element fails it. -/
theorem find?_and_eq_iff {α : Type} (p r : α → Bool) (l : List α) :
    l.find? p = l.find? (fun x => p x && r x) ↔ ∀ x, l.find? p = some x → r x = true := by
  constructor
  · intro heq x hx
    have hboth := List.find?_some (heq ▸ hx)
    exact (Bool.and_eq_true_iff.1 hboth).2
  · intro hall
    induction l with
    | nil => rfl
    | cons a l ih =>
      rw [List.find?_cons, List.find?_cons]
      by_cases ha : p a = true
      · have hr := hall a (by rw [List.find?_cons_of_pos ha])
        simp [ha, hr]
      · simp only [ha, Bool.false_and]
        exact ih fun x hx => hall x (by rw [List.find?_cons_of_neg ha, hx])

namespace Engine

variable {e : Engine} {m : Workspace MemoryStore} {w : Workspace Disk} {name dir : String}
  {p q file : FilePath}

/-- The base of the engine is the root of a tree on the disk that can be read, what it searches lies
in the tree, and the store in memory holds the files of the tree. -/
structure StandsIn (e : Engine) (m : Workspace MemoryStore) (w : Workspace Disk) : Prop where
  proper : w.store.IsProper
  base : w.store.isDirectory e.base = true
  readable : w.store.IsReadable (w.store.trailOf e.base)
  inside : ∀ dir ∈ searchDirs e.base e.framework, IsBelow e.base dir
  mirrors : m.store.Mirrors w.store e.base
  cache : m.cache = w.cache

namespace StandsIn

variable (h : e.StandsIn m w)

include h

/-! ### Finding -/

/-- Memory finds no file under a path that can only lead to a directory. -/
theorem isFile_eq (hname : isValidName name = true) (hq : q ∈ e.candidates name) :
    FileStore.isFile w.store q = (FileStore.isFile m.store q && !Disk.wantsDirectory q) := by
  obtain ⟨dir, hdir, hbelow⟩ := isBelow_of_mem_candidates hname hq
  exact h.mirrors.isFile_eq h.proper.toIsTree h.base ((h.inside dir hdir).trans hbelow)

/-- **Memory finds what the disk finds** if and only if it finds no file under a path that can only
lead to a directory. -/
theorem find_eq_iff : e.find m.store name = e.find w.store name ↔
    ∀ path, e.find m.store name = .ok path → Disk.wantsDirectory path = false := by
  unfold Engine.find
  split_ifs with hname
  · have hdisk : (e.candidates name).find? (FileStore.isFile w.store) =
        (e.candidates name).find? fun q =>
          FileStore.isFile m.store q && !Disk.wantsDirectory q :=
      List.find?_congr fun q hq => h.isFile_eq hname hq
    have hiff := find?_and_eq_iff (FileStore.isFile m.store) (!Disk.wantsDirectory ·)
      (e.candidates name)
    rw [← hdisk] at hiff
    simp only [Bool.not_eq_true'] at hiff
    generalize (e.candidates name).find? (FileStore.isFile m.store) = inMemory at hiff ⊢
    generalize (e.candidates name).find? (FileStore.isFile w.store) = onDisk at hiff ⊢
    rcases inMemory with _ | path <;> rcases onDisk with _ | path' <;> simp_all
  · simp

theorem of_store {store : MemoryStore} (hstore : store.Mirrors w.store e.base) (cache : Cache) :
    e.StandsIn ⟨store, cache⟩ ⟨w.store, cache⟩ :=
  ⟨h.proper, h.base, h.readable, h.inside, hstore, rfl⟩

/-- What memory finds under a path that may lead to a file reads the same from the disk. -/
theorem read_eq {path : FilePath} (hfind : e.find m.store name = .ok path)
    (hplain : Disk.wantsDirectory path = false) :
    ∃ text store, FileStore.read m.store path = (.ok text, store) ∧
      store.Mirrors w.store e.base ∧ FileStore.read w.store path = (.ok text, w.store) := by
  obtain ⟨text, hmem, hdisk⟩ :=
    h.mirrors.read_eq h.proper.toIsTree h.base (find_ok hfind).2.2 hplain
  exact ⟨text, _, Prod.ext hmem rfl, h.mirrors.read path, hdisk⟩

/-- Loading gives the same template, and memory stands in afterwards, if memory finds no file under
a path that can only lead to a directory. -/
theorem loadEntry
    (hplain : ∀ path, e.find m.store name = .ok path → Disk.wantsDirectory path = false) :
    ((e.loadEntry name).on m).1 = ((e.loadEntry name).on w).1 ∧
      e.StandsIn ((e.loadEntry name).on m).2 ((e.loadEntry name).on w).2 := by
  have hfind := h.find_eq_iff.2 hplain
  rw [on_loadEntry, on_loadEntry, h.cache, ← hfind]
  rcases w.cache.get? name with _ | t
  · rcases hpath : e.find m.store name with f | path
    · exact ⟨rfl, h⟩
    · obtain ⟨text, store, hmem, hstore, hdisk⟩ := h.read_eq hpath (hplain path hpath)
      simp only [hmem, hdisk]
      exact ⟨trivial, h.of_store hstore _⟩
  · exact ⟨rfl, h⟩

/-! ### Listing -/

theorem goesDown_root (hdir : (dir.isEmpty || isValidName dir) = true) :
    GoesDown e.base (e.root dir) := by
  unfold Engine.root
  split_ifs with hempty
  · exact ⟨[], by simp⟩
  · have hvalid : isValidName dir = true := by simpa [hempty] using hdir
    obtain ⟨more, hcomponents, hmore⟩ :=
      FilePath.isBelow_join e.base (Bool.and_eq_true_iff.1 hvalid).2
    obtain ⟨r, hstat⟩ := Disk.stat_of_isDirectory h.base
    obtain ⟨names, rfl⟩ :=
      FilePath.exists_names_of_isInner (Disk.stat_eq_ok_iff.1 hstat).1 hcomponents hmore
    exact ⟨names, hcomponents⟩

/-- **Memory lists what the disk lists** if and only if the directory is there, or leaves the
base. -/
theorem namesIn_eq_iff : e.namesIn m.store dir = e.namesIn w.store dir ↔
    ((dir.isEmpty || isValidName dir) = true → w.store.isDirectory (e.root dir) = true) := by
  rw [namesIn_eq, namesIn_eq]
  split_ifs with hdir
  · have hmem : FileStore.files m.store (e.root dir) = .ok (m.store.files (e.root dir)) := rfl
    rw [hmem]
    by_cases hroot : w.store.isDirectory (e.root dir) = true
    · obtain ⟨paths, hpaths, hsame⟩ := h.mirrors.files_eq h.proper h.base h.readable
        (h.goesDown_root hdir) hroot
      rw [hpaths]
      refine iff_of_true (congrArg Except.ok (sortedNames_congr fun name => ?_)) fun _ => hroot
      simp only [List.mem_filterMap]
      constructor
      · rintro ⟨file, hfile, hname⟩
        obtain ⟨p, hp, hsame'⟩ := (hsame file).2 ⟨file, hfile, FilePath.same_self file⟩
        exact ⟨p, hp, (nameOf?_congr e.base hsame').trans hname⟩
      · rintro ⟨file, hfile, hname⟩
        obtain ⟨p, hp, hsame'⟩ := (hsame file).1 ⟨file, hfile, FilePath.same_self file⟩
        exact ⟨p, hp, (nameOf?_congr e.base hsame').trans hname⟩
    · obtain ⟨p, hp⟩ := Disk.files_of_not_isDirectory hroot
      have hdisk : FileStore.files w.store (e.root dir) = .error p := hp
      rw [hdisk]
      exact iff_of_false (fun heq => by cases heq) fun hall => hroot (hall hdir)
  · simp [hdir]

/-! ### Actions -/

/-- Names that were listed are loaded alike. -/
theorem loadAll {names : List String}
    (hnames : ∀ name ∈ names, ∃ file, nameOf? e.base file = some name) :
    ((e.loadAll names).on m).1 = ((e.loadAll names).on w).1 ∧
      e.StandsIn ((e.loadAll names).on m).2 ((e.loadAll names).on w).2 := by
  induction names generalizing m w with
  | nil => exact ⟨rfl, h⟩
  | cons name names ih =>
    obtain ⟨file, hfile⟩ := hnames name List.mem_cons_self
    have hplain : ∀ path, e.find m.store name = .ok path → Disk.wantsDirectory path = false :=
      fun path hpath => wantsDirectory_of_mem_candidates hfile (find_ok hpath).2.1
    have hload := h.loadEntry hplain
    rw [on_loadAll_cons, on_loadAll_cons]
    generalize (e.loadEntry name).on m = inMemory at hload ⊢
    generalize (e.loadEntry name).on w = onDisk at hload ⊢
    obtain ⟨r, m'⟩ := inMemory
    obtain ⟨r', w'⟩ := onDisk
    obtain ⟨rfl, hnext⟩ : r = r' ∧ e.StandsIn m' w' := hload
    obtain ⟨hcount, hlast⟩ := ih hnext fun n hn => hnames n (List.mem_cons_of_mem _ hn)
    cases r with
    | ok t => exact ⟨congrArg (Except.map (1 + ·)) hcount, hlast⟩
    | error f => exact ⟨congrArg (Except.map (0 + ·)) hcount, hlast⟩

theorem preload (hdir : (dir.isEmpty || isValidName dir) = true →
      w.store.isDirectory (e.root dir) = true) :
    ((e.preload dir).on m).1 = ((e.preload dir).on w).1 ∧
      e.StandsIn ((e.preload dir).on m).2 ((e.preload dir).on w).2 := by
  rw [on_preload, on_preload, h.namesIn_eq_iff.2 hdir]
  rcases hlist : e.namesIn w.store dir with f | names
  · exact ⟨rfl, h⟩
  · refine h.loadAll fun name hname => ?_
    rw [namesIn_eq] at hlist
    split_ifs at hlist
    rcases hfiles : FileStore.files w.store (e.root dir) with p | files
    · simp [hfiles] at hlist
    · rw [hfiles] at hlist
      obtain rfl := Except.ok.inj hlist
      obtain ⟨file, -, hof⟩ := List.mem_filterMap.1 (mem_sortedNames.1 hname)
      exact ⟨file, hof⟩

end StandsIn

end Engine

/-- Memory is not asked for what only directories tell apart: a directory that is asked for is
there, and memory finds no file under a path that can only lead to a directory. -/
def Action.IsPlain (e : Engine) (m : MemoryStore) (d : Disk) : Action → Prop
  | .resolve name | .load name | .render name _ =>
    ∀ path, e.find m name = .ok path → Disk.wantsDirectory path = false
  | .list dir | .preload dir =>
    (dir.isEmpty || isValidName dir) = true → d.isDirectory (e.root dir) = true
  | .renderSource _ _ _ => True
  | .renderToFile _ _ _ => False

namespace Action.IsPlain

variable {e : Engine} {m m' : MemoryStore} {d : Disk} {a : Action}

/-- What is plain does not depend on what was read before. -/
theorem congr (h : a.IsPlain e m d) (hm : m.Mirrors d e.base) (hm' : m'.Mirrors d e.base) :
    a.IsPlain e m' d := by
  have hfind (name : String) : e.find m' name = e.find m name :=
    Engine.find_congr fun _ _ _ => hm'.isFile_congr hm
  cases a with
  | resolve name => simpa only [IsPlain, hfind] using h
  | load name => simpa only [IsPlain, hfind] using h
  | render name data => simpa only [IsPlain, hfind] using h
  | renderSource => trivial
  | renderToFile => exact h.elim
  | list dir => exact h
  | preload dir => exact h

/-- A plain action leaves the disk as it is. -/
theorem store_eq (h : a.IsPlain e m d) (w : Workspace Disk) :
    ((a.job e).on w).2.store = w.store := by
  refine a.keeps (P := fun w' => w'.store = w.store) (fun name w' hw' => ?_)
    (fun out text w' hout => ?_) rfl
  · rw [Engine.store_loadEntry, hw']
  · cases a with
    | renderToFile => exact h.elim
    | _ => cases hout

end Action.IsPlain

namespace Engine.StandsIn

variable {e : Engine} {m : Workspace MemoryStore} {w : Workspace Disk} {a : Action}

/-- A plain action gets the same answer, and memory stands in afterwards. -/
theorem step (h : e.StandsIn m w) (ha : a.IsPlain e m.store w.store) :
    ((a.job e).on m).1 = ((a.job e).on w).1 ∧
      e.StandsIn ((a.job e).on m).2 ((a.job e).on w).2 := by
  cases a with
  | resolve name =>
    rw [Action.job, Action.job, Job.on_map, Job.on_map, on_resolve, on_resolve,
      h.find_eq_iff.2 ha]
    exact ⟨rfl, h⟩
  | load name =>
    obtain ⟨hload, hnext⟩ := h.loadEntry ha
    rw [Action.job, Action.job, Job.on_map, Job.on_map, on_load, on_load, hload]
    exact ⟨rfl, hnext⟩
  | render name data =>
    obtain ⟨hload, hnext⟩ := h.loadEntry ha
    rw [Action.job, Action.job, Job.on_map, Job.on_map, on_render, on_render, hload]
    exact ⟨rfl, hnext⟩
  | renderSource name source data =>
    rw [Action.job, Action.job, Job.on_map, Job.on_map, Job.on_ofResult, Job.on_ofResult]
    exact ⟨rfl, h⟩
  | renderToFile name out data => exact ha.elim
  | list dir =>
    rw [Action.job, Action.job, Job.on_map, Job.on_map, on_list, on_list,
      h.namesIn_eq_iff.2 ha]
    exact ⟨rfl, h⟩
  | preload dir =>
    obtain ⟨hcount, hnext⟩ := h.preload ha
    rw [Action.job, Action.job, Job.on_map, Job.on_map, hcount]
    exact ⟨rfl, hnext⟩

/-- A sequence of plain actions gets the same answers. -/
theorem answers_congr (h : e.StandsIn m w) {actions : List Action}
    (ha : ∀ a ∈ actions, a.IsPlain e m.store w.store) :
    e.answers m actions = e.answers w actions := by
  induction actions generalizing m w with
  | nil => rfl
  | cons a actions ih =>
    have hplain := ha a List.mem_cons_self
    obtain ⟨hanswer, hnext⟩ := h.step hplain
    have hstore := hplain.store_eq w
    refine congrArg₂ _ hanswer (ih hnext fun b hb => ?_)
    have hmirrors := hnext.mirrors
    rw [hstore] at hmirrors ⊢
    exact (ha b (List.mem_cons_of_mem _ hb)).congr h.mirrors hmirrors

/-- **An engine over files in memory answers like one over the disk** whose tree they are, to every
sequence of plain actions; and for finding and listing, only plain actions are answered alike. -/
theorem answers_eq (h : e.StandsIn m w) :
    (∀ actions : List Action, (∀ a ∈ actions, a.IsPlain e m.store w.store) →
      e.answers m actions = e.answers w actions) ∧
    (∀ name, ((e.resolve name).on m).1 = ((e.resolve name).on w).1 ↔
      (Action.resolve name).IsPlain e m.store w.store) ∧
    ∀ dir, ((e.list dir).on m).1 = ((e.list dir).on w).1 ↔
      (Action.list dir).IsPlain e m.store w.store :=
  ⟨fun _ => h.answers_congr, fun _ => h.find_eq_iff, fun _ => h.namesIn_eq_iff⟩

end Engine.StandsIn

namespace Engine

/-- The one file of `plainDisk`, in memory. -/
def plainStore : MemoryStore := MemoryStore.empty.insert (.ofString "t/a/x.ts.j2") ""

theorem standsIn_plainStore : (below "t").StandsIn ⟨plainStore, .empty⟩ ⟨plainDisk, .empty⟩ := by
  have hproper : plainDisk.IsProper := by decide +kernel
  have htrail : plainDisk.trailOf (below "t").base = ["t".toList] := by decide +kernel
  have hentry {u : Trail} {x : DiskEntry} (hu : u ≠ []) :
      plainDisk.standing? u = some x ↔ (u, x) ∈ plainDisk.entries := by
    rw [hproper.mem_entries_iff, and_iff_right hu]
  have hfile {names : List (List Char)} {b : ByteArray} :
      plainDisk.standing? (plainDisk.trailOf (below "t").base ++ names) = some (.file b) ↔
        names = ["a".toList, "x.ts.j2".toList] ∧ b = "".toUTF8 := by
    rw [htrail, hentry (by simp)]
    simp [plainDisk]
  have hplace : (FilePath.ofString "t/a/x.ts.j2").components = (below "t").base.components ++
      ["a".toList, "x.ts.j2".toList].map .normal := by decide +kernel
  refine ⟨hproper, by decide +kernel, fun t ht hs => ?_, fun dir hdir => ?_,
    ⟨fun hs => ⟨"", (hfile.1 hs).2⟩, fun {q text} => ?_⟩, rfl⟩
  · have hne : t ≠ [] := by
      rintro rfl
      rw [htrail] at ht
      simp at ht
    have hmem := (hentry hne).1 hs
    simp [plainDisk] at hmem
  · obtain rfl := List.mem_singleton.1 hdir
    exact ⟨[], by simp, rfl⟩
  · have hcontents : plainStore.contents q =
        if q.same (.ofString "t/a/x.ts.j2") then some "" else none :=
      MemoryStore.contents_insert _ _ _ _
    simp only [hcontents, hfile, Option.ite_none_right_eq_some, FilePath.same_iff, hplace]
    constructor
    · rintro ⟨hq, htext⟩
      obtain rfl := Option.some.inj htext
      exact ⟨_, hq, rfl, rfl⟩
    · rintro ⟨names, hq, rfl, htext⟩
      exact ⟨hq, congrArg some (String.toByteArray_inj.1 htext).symm⟩

theorem answers_eq_below : (below "t").StandsIn ⟨plainStore, .empty⟩ ⟨plainDisk, .empty⟩ ∧
    (∀ a ∈ [Action.list "", .resolve "a/x.ts", .load "b", .preload "a"],
      a.IsPlain (below "t") plainStore plainDisk) ∧
    (below "t").answers (Workspace.mk plainStore .empty)
        [.list "", .resolve "a/x.ts", .load "b", .preload "a"] =
      (below "t").answers (Workspace.mk plainDisk .empty)
        [.list "", .resolve "a/x.ts", .load "b", .preload "a"] := by
  have hplain : ∀ a ∈ [Action.list "", .resolve "a/x.ts", .load "b", .preload "a"],
      a.IsPlain (below "t") plainStore plainDisk := by
    have hname (file : String) {name : String}
        (h : nameOf? (below "t").base (.ofString file) = some name) (path : FilePath)
        (hpath : (below "t").find plainStore name = .ok path) :
        Disk.wantsDirectory path = false :=
      wantsDirectory_of_mem_candidates h (find_ok hpath).2.1
    simp only [List.mem_cons, List.not_mem_nil, or_false, forall_eq_or_imp, forall_eq]
    refine ⟨fun _ => by decide +kernel, fun path => ?_, fun path => ?_, fun _ => by decide +kernel⟩
    · exact hname "t/a/x.ts.j2" (by decide +kernel) path
    · exact hname "t/b.j2" (by decide +kernel) path
  exact ⟨standsIn_plainStore, hplain, standsIn_plainStore.answers_eq.1 _ hplain⟩

/-- A directory that is missing is listed as empty in memory and cannot be listed on the disk. -/
theorem missing_listed : (below "t").StandsIn ⟨plainStore, .empty⟩ ⟨plainDisk, .empty⟩ ∧
    (((below "t").list "missing").on (Workspace.mk plainStore .empty)).1 = .ok [] ∧
    (((below "t").list "missing").on (Workspace.mk plainDisk .empty)).1 =
      .error (unlistable (.ofString "t/missing") .missing) := by
  have hmem : FileStore.files plainStore ((below "t").root "missing") = .ok [] := by
    decide +kernel
  have hdisk : FileStore.files plainDisk ((below "t").root "missing") = .error .missing := by
    decide +kernel
  have hroot : (below "t").root "missing" = .ofString "t/missing" := by decide +kernel
  refine ⟨standsIn_plainStore, ?_, ?_⟩
  · rw [on_list, namesIn_of_files (by decide +kernel) hmem]
    rfl
  · rw [on_list, namesIn_eq, if_pos (by decide +kernel), hdisk, hroot]

end Engine

end ServiceScaffold.Template
