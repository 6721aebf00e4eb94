import ServiceScaffold.Proofs.Template.Roots
import ServiceScaffold.Proofs.Template.StandIn

/-!
# Templates of a framework and general ones

An engine with a framework looks for a template below the directory of the framework, and then for
the general template below its base.  Its candidates are those of an engine that looks below the
directory of the framework only, and those of one that looks for general templates only, where a
place that comes again is dropped.

Dropping a place does no harm if all paths to it find the same file.  In memory they do; on a disk, a
path that ends with a slash or a dot finds no file, so that the general template may be dropped for a
path that cannot find it.

* `Engine.FallsBack` : lookup gives the template of the framework, and the general one if there is
  none;
* `Engine.Masked` : the general template stands at a place that was tried in vain for the framework;
* `Engine.fallsBack_iff` : **lookup falls back if and only if the general template is not masked**;
* `Engine.masked_iff_on_disk` : on a disk, the template is masked by its own name below the directory
  of the framework;
* `Engine.Overlaps` : the name, as it is below the directory of the framework, leads to the place of
  the general template with an extension;
* `Engine.resolve_fallsBack` : **lookup falls back in memory, and on a disk unless the two overlap.**
-/

namespace ServiceScaffold.Template

open FilePath

/-! ### Paths that are tried -/

section

variable {dir q : FilePath} {name : List Char}

/-- Of the paths that are tried, only the name itself can ask for a directory. -/
theorem eq_join_of_wantsDirectory (hq : q ∈ patternsIn dir name)
    (hwants : Disk.wantsDirectory q = true) : q = dir.join ⟨name⟩ := by
  have hplain (base : FilePath) (stem : List Char) {extension : List Char}
      (he : extension ∈ extensions) :
      Disk.wantsDirectory (base.join ⟨withExtension stem extension⟩) = false := by
    obtain ⟨front, hfront⟩ := base.exists_join_eq ⟨withExtension stem extension⟩
    rw [hfront, withExtension, ← List.append_assoc, List.append_cons]
    exact Disk.wantsDirectory_append_name (extension_spec he).1 _
  obtain hself | ⟨extension, he, rfl | ⟨base, -, rfl⟩⟩ := patternsIn_cases hq
  · exact hself
  · exact absurd hwants (Bool.eq_false_iff.1 (hplain _ _ he))
  · exact absurd hwants (Bool.eq_false_iff.1 (hplain _ _ he))

/-- The file name of a path is its last component, below every directory. -/
theorem getLast?_components_join {rel : FilePath} {file : List Char} (dir : FilePath)
    (habs : rel.isAbsolute = false) (hfile : rel.fileName? = some file) :
    (dir.join rel).components.getLast? = some (.normal file) := by
  obtain ⟨c, hlast, hname⟩ := Option.bind_eq_some_iff.1 hfile
  obtain rfl := Component.name?_eq_some.1 hname
  by_cases hdir : dir.chars = []
  · rwa [join_of_empty hdir]
  rw [components_eq] at hlast
  have hinner : innerOf rel.chars ≠ [] := by
    intro hnil
    rw [hnil, List.append_nil] at hlast
    unfold leading at hlast
    split_ifs at hlast <;> simp at hlast
  rw [components_join hdir habs, List.getLast?_append_of_ne_nil _ hinner]
  rwa [List.getLast?_append_of_ne_nil _ hinner] at hlast

/-- A name that stays inside and has no file name is a dot. -/
theorem components_of_fileName?_eq_none
    (h : (FilePath.mk name).components.all Component.isInner = true) (hne : name ≠ [])
    (hfile : (FilePath.mk name).fileName? = none) :
    (FilePath.mk name).components = [.current] ∧ ∃ rest, name = '.' :: rest := by
  have hinner : innerOf name = [] := by
    by_contra hinner
    obtain ⟨init, c, hlast⟩ := (List.eq_nil_or_concat' _).resolve_left hinner
    obtain ⟨piece, -, hof⟩ := List.mem_filterMap.1 (show c ∈ innerOf name by simp [hlast])
    have hc := List.all_eq_true.1 h c (by rw [components_eq]; simp [hlast])
    rw [fileName?, components_eq, hlast, ← List.append_assoc, List.getLast?_concat] at hfile
    unfold Component.ofPiece? at hof
    split_ifs at hof
    · obtain rfl := Option.some.inj hof
      cases hc
    · obtain rfl := Option.some.inj hof
      cases hfile
  have hcomponents : (FilePath.mk name).components = leading ⟨name⟩ := by
    rw [components_eq, hinner, List.append_nil]
  have hhead := components_ne_nil (p := ⟨name⟩) hne
  rw [hcomponents] at h hhead ⊢
  unfold leading at h hhead ⊢
  split_ifs at h hhead ⊢ with habs hhere
  · cases h
  · refine ⟨rfl, ?_⟩
    unfold startsHere at hhere
    split at hhere
    · rename_i hname; exact ⟨[], hname⟩
    · rename_i rest hname; exact ⟨_, hname⟩
    · cases hhere
  · exact absurd rfl hhead

/-- Where a path that is tried is the place of the name below another directory, it is the name, or
the name with an extension: in a directory named after its stem, the file has another name. -/
theorem place_of_mem_patternsIn {dir' : FilePath}
    (h : (FilePath.mk name).components.all Component.isInner = true) (hne : name ≠ [])
    (hq : q ∈ patternsIn dir name) (hsame : q.same (dir'.join ⟨name⟩) = true) :
    q = dir.join ⟨name⟩ ∨
      ∃ extension ∈ extensions, q.same (dir.join ⟨withExtension name extension⟩) = true := by
  obtain hself | ⟨extension, he, rfl | ⟨base, hbase, rfl⟩⟩ := patternsIn_cases hq
  · exact .inl hself
  · exact .inr ⟨extension, he, same_self _⟩
  rcases hfile : (FilePath.mk name).fileName? with _ | file
  -- a name without a file name is a dot: it has no parent, and nothing stands before its first dot
  · obtain ⟨hcurrent, rest, hdot⟩ := components_of_fileName?_eq_none h hne hfile
    obtain rfl : base = dir := by
      obtain hdir | ⟨parent, hparent, hparentne, -⟩ := hbase
      · exact hdir
      · refine absurd (components_eq_nil.1 ?_) hparentne
        rw [components_parent? hparent, hcurrent]
        rfl
    have hstem : stemOf name = [] := by simp [stemOf, hdot]
    have hdir : (base.join ⟨[]⟩).same base = true := by
      by_cases hbase : base.chars = []
      · rw [join_of_empty hbase, same_iff, components_eq_nil.2 hbase]
        rfl
      · rw [same_iff, components_join hbase rfl, innerOf_nil, List.append_nil]
    refine .inr ⟨extension, he, ?_⟩
    rw [Option.getD_none, hstem]
    exact same_join hdir _
  -- the file has the extension, and the name has not
  · exfalso
    rw [hfile, Option.getD_some] at hsame
    have hlast := getLast?_components_join dir' ((stays_iff _).1 h).1 hfile
    have hname : IsName file := by
      obtain ⟨c, hc, hcname⟩ := Option.bind_eq_some_iff.1 hfile
      obtain rfl := Component.name?_eq_some.1 hcname
      exact isName_of_mem_components (List.mem_of_getLast? hc)
    rw [← same_iff.1 hsame, components_join_name _ (isName_withExtension hname he).components,
      List.getLast?_concat] at hlast
    have hlength := congrArg List.length (Component.normal.inj (Option.some.inj hlast))
    simp [withExtension] at hlength

end

namespace Engine

variable {σ : Type} [FileStore σ] {e : Engine} {framework name : String} {w : Workspace σ}
  {path : FilePath}

/-! ### The two engines -/

/-- The engine that looks below the directory of a framework only. -/
def within (e : Engine) (framework : String) : Engine :=
  ⟨e.base.join (.ofString framework), none, e.renderer⟩

/-- The engine that looks for general templates only. -/
def general (e : Engine) : Engine := { e with framework := none }

/-- The candidates are those for the framework, and those general ones that stand elsewhere. -/
theorem candidates_eq (hframework : e.framework = some framework) (hne : framework ≠ "") :
    e.candidates name =
        dropRepeated [] ((e.within framework).candidates name ++ e.general.candidates name) ∧
      e.candidates name = (e.within framework).candidates name ++
        (e.general.candidates name).filter (isNew ((e.within framework).candidates name)) := by
  have hwithin : (e.within framework).candidates name =
      dropRepeated [] (patternsIn (e.base.join (.ofString framework)) name.toList) := by
    simp [candidates, Template.candidates, searchDirs, within]
  have hgeneral : e.general.candidates name =
      dropRepeated [] (patternsIn e.base name.toList) := by
    simp [candidates, Template.candidates, searchDirs, general]
  have hall : e.candidates name =
      dropRepeated ((e.within framework).candidates name) (patternsIn e.base name.toList) := by
    rw [candidates, Template.candidates, hframework, searchDirs_some _ hne, List.flatMap_cons,
      List.flatMap_singleton, dropRepeated_append, hwithin]
  refine ⟨?_, by rw [hall, dropRepeated_eq_append, hgeneral]⟩
  rw [hall, dropRepeated_append, hgeneral, dropRepeated_dropRepeated, hwithin,
    dropRepeated_dropRepeated]

/-- The first candidate at which a file stands. -/
def first? (e : Engine) (store : σ) (name : String) : Option FilePath :=
  (e.candidates name).find? (FileStore.isFile store)

theorem resolve_eq_ok_iff (e : Engine) (hname : isValidName name = true) (w : Workspace σ)
    (path : FilePath) :
    ((e.resolve name).on w).1 = .ok path ↔ e.first? w.store name = some path := by
  rw [on_resolve, find, if_pos hname, first?]
  rcases (e.candidates name).find? (FileStore.isFile w.store) with _ | q <;> simp

theorem resolve_eq_error_iff (e : Engine) (hname : isValidName name = true) (w : Workspace σ)
    (f : Failure) : ((e.resolve name).on w).1 = .error f ↔
      e.first? w.store name = none ∧ f = notFound name (e.candidates name) := by
  rw [on_resolve, find, if_pos hname, first?]
  rcases (e.candidates name).find? (FileStore.isFile w.store) with _ | q <;> simp [eq_comm]

theorem exists_resolve_eq_error_iff (e : Engine) (hname : isValidName name = true)
    (w : Workspace σ) :
    (∃ f, ((e.resolve name).on w).1 = .error f) ↔ e.first? w.store name = none := by
  simp [resolve_eq_error_iff e hname]

section

variable (hframework : e.framework = some framework) (hne : framework ≠ "") {store : σ}

include hframework hne

/-- What is found below the directory of the framework is found. -/
theorem first?_of_within (h : (e.within framework).first? store name = some path) :
    e.first? store name = some path := by
  rw [first?] at h
  rw [first?, (candidates_eq hframework hne).2, List.find?_append, h]
  rfl

/-- If nothing is found there, it is the first general template at a place that was not tried. -/
theorem first?_of_within_eq_none (h : (e.within framework).first? store name = none) :
    e.first? store name = (e.general.candidates name).find? fun q =>
      FileStore.isFile store q && isNew ((e.within framework).candidates name) q := by
  rw [first?] at h
  rw [first?, (candidates_eq hframework hne).2, List.find?_append, h, Option.none_or,
    List.find?_filter]
  simp [Bool.and_comm]

end

/-! ### Falling back -/

/-- Lookup gives what it gives below the directory of the framework, and the general template only
if that fails; it fails if both fail. -/
structure FallsBack (e : Engine) (framework name : String) (w : Workspace σ) : Prop where
  found (path : FilePath) : ((e.resolve name).on w).1 = .ok path ↔
    (((e.within framework).resolve name).on w).1 = .ok path ∨
      (∃ f, (((e.within framework).resolve name).on w).1 = .error f) ∧
        ((e.general.resolve name).on w).1 = .ok path
  failed : (∃ f, ((e.resolve name).on w).1 = .error f) ↔
    (∃ f, (((e.within framework).resolve name).on w).1 = .error f) ∧
      ∃ f, ((e.general.resolve name).on w).1 = .error f

/-- There is a general template, and none of the framework, though the engine looks for one of the
framework at the place of the general one. -/
structure Masked (e : Engine) (framework name : String) (w : Workspace σ) (path : FilePath) :
    Prop where
  failed : ∃ f, (((e.within framework).resolve name).on w).1 = .error f
  general : ((e.general.resolve name).on w).1 = .ok path
  looksAt : (e.within framework).LooksAt name path

theorem Masked.found (h : e.Masked framework name w path) :
    isValidName name = true ∧ path ∈ e.general.candidates name ∧
      FileStore.isFile w.store path = true := by
  have hfind : e.general.find w.store name = .ok path := h.general
  exact find_ok hfind

/-- A path to the same place was tried for the framework, and no file was found. -/
theorem Masked.exists_tried (h : e.Masked framework name w path) :
    ∃ q ∈ (e.within framework).candidates name, q.same path = true ∧
      FileStore.isFile w.store q = false := by
  obtain ⟨q, hq, hsame⟩ := h.looksAt
  have hfailed := (exists_resolve_eq_error_iff _ h.found.1 w).1 h.failed
  rw [first?, List.find?_eq_none] at hfailed
  exact ⟨q, hq, hsame, by simpa using hfailed q hq⟩

section

variable (hframework : e.framework = some framework) (hne : framework ≠ "")
  (hname : isValidName name = true)

include hframework hne hname

theorem fallsBack_iff_first? : e.FallsBack framework name w ↔
    ((e.within framework).first? w.store name = none →
      e.first? w.store name = e.general.first? w.store name) := by
  constructor
  · intro h hnone
    ext path
    have hfound := h.found path
    simp only [exists_resolve_eq_error_iff _ hname, resolve_eq_ok_iff _ hname, hnone] at hfound
    simpa using hfound
  · intro h
    constructor
    · intro path
      simp only [exists_resolve_eq_error_iff _ hname, resolve_eq_ok_iff _ hname]
      rcases hwithin : (e.within framework).first? w.store name with _ | q
      · simp [h hwithin]
      · simp [first?_of_within hframework hne hwithin]
    · simp only [exists_resolve_eq_error_iff _ hname]
      rcases hwithin : (e.within framework).first? w.store name with _ | q
      · simp [h hwithin]
      · simp [first?_of_within hframework hne hwithin]

/-- **Lookup falls back if and only if the general template is not masked.** -/
theorem fallsBack_iff :
    e.FallsBack framework name w ↔ ∀ path, ¬e.Masked framework name w path := by
  have hmasked (path : FilePath) : e.Masked framework name w path ↔
      (e.within framework).first? w.store name = none ∧
        e.general.first? w.store name = some path ∧
        isNew ((e.within framework).candidates name) path = false := by
    rw [isNew_eq_false, ← exists_resolve_eq_error_iff _ hname, ← resolve_eq_ok_iff _ hname]
    exact ⟨fun h => ⟨h.failed, h.general, h.looksAt⟩, fun ⟨h, h', h''⟩ => ⟨h, h', h''⟩⟩
  have hfilter := find?_and_eq_iff (FileStore.isFile w.store)
    (isNew ((e.within framework).candidates name)) (e.general.candidates name)
  rw [fallsBack_iff_first? hframework hne hname]
  simp only [hmasked, not_and, Bool.not_eq_false]
  constructor
  · intro h path hnone
    have hfirst := h hnone
    rw [first?_of_within_eq_none hframework hne hnone] at hfirst
    exact hfilter.1 hfirst.symm path
  · intro h hnone
    rw [first?_of_within_eq_none hframework hne hnone]
    exact (hfilter.2 fun path => h path hnone).symm

end

/-! ### In memory and on a disk -/

theorem mem_patternsIn_of_mem_candidates {q : FilePath} (h : e.framework = none)
    (hq : q ∈ e.candidates name) : q ∈ patternsIn e.base name.toList := by
  rw [candidates, Template.candidates, h] at hq
  simpa [searchDirs] using (mem_of_mem_dropRepeated hq).resolve_left List.not_mem_nil

/-- In memory, no template is masked: where it stands, it is found for the framework. -/
theorem not_masked_in_memory (w : Workspace MemoryStore) : ¬e.Masked framework name w path := by
  intro h
  obtain ⟨q, -, hsame, hmissing⟩ := h.exists_tried
  exact Bool.eq_false_iff.1 hmissing (MemoryStore.isFile_of_same h.found.2.2 (same_symm hsame))

/-- The name, as it is below the directory of the framework, leads to the place of the general
template with an extension, and can only lead to a directory. -/
def Overlaps (e : Engine) (framework name : String) : Prop :=
  Disk.wantsDirectory (.ofString name) = true ∧ ∃ extension ∈ extensions,
    (e.base.join ⟨withExtension name.toList extension⟩).same
      ((e.within framework).base.join (.ofString name)) = true

instance : Decidable (e.Overlaps framework name) := by
  unfold Overlaps
  infer_instance

namespace Masked

variable {w : Workspace Disk}

/-- On a disk, the template is masked by its own name below the directory of the framework: only a
path that asks for a directory can stand in the way of a file. -/
theorem same_name (h : e.Masked framework name w path) :
    path.same ((e.within framework).base.join (.ofString name)) = true ∧
      Disk.wantsDirectory ((e.within framework).base.join (.ofString name)) = true := by
  obtain ⟨q, hq, hsame, hmissing⟩ := h.exists_tried
  have hwants : Disk.wantsDirectory q = true := by
    by_contra hplain
    have hfile := Disk.isFile_of_same h.found.2.2 (same_symm hsame) (by simpa using hplain)
    exact Bool.eq_false_iff.1 hmissing hfile
  have hself := eq_join_of_wantsDirectory (mem_patternsIn_of_mem_candidates rfl hq) hwants
  rw [hself] at hsame hwants
  exact ⟨same_symm hsame, hwants⟩

theorem overlaps (h : e.Masked framework name w path) : e.Overlaps framework name := by
  obtain ⟨hname, hmem, hfile⟩ := h.found
  obtain ⟨hsame, hwants⟩ := h.same_name
  obtain ⟨hne, hinner⟩ := stays_of_isValidName hname
  have habs := ((stays_iff _).1 hinner).1
  rw [Disk.wantsDirectory_join _ habs hne] at hwants
  refine ⟨hwants, ?_⟩
  obtain rfl | ⟨extension, he, hplace⟩ :=
    place_of_mem_patternsIn hinner hne (mem_patternsIn_of_mem_candidates rfl hmem) hsame
  -- below the base, the name asks for a directory as well
  · have hplain : Disk.wantsDirectory (e.base.join (.ofString name)) = false :=
      Disk.wantsDirectory_of_isFile hfile
    rw [Disk.wantsDirectory_join _ habs hne, hwants] at hplain
    cases hplain
  · exact ⟨extension, he, same_trans (same_symm hplace) hsame⟩

end Masked

theorem masked_iff_on_disk {w : Workspace Disk} :
    e.Masked framework name w path ↔
      (∃ f, (((e.within framework).resolve name).on w).1 = .error f) ∧
        ((e.general.resolve name).on w).1 = .ok path ∧
        path.same ((e.within framework).base.join (.ofString name)) = true := by
  refine ⟨fun h => ⟨h.failed, h.general, h.same_name.1⟩, fun ⟨hfailed, hgeneral, hsame⟩ => ?_⟩
  exact ⟨hfailed, hgeneral, looksAt_iff.2 ⟨(e.within framework).base, List.mem_singleton_self _,
    [.ofString name], by simp [waysTo, FilePath.ofString], same_symm hsame⟩⟩

/-- **Lookup falls back to general templates.**  What is found below the directory of the framework
is found; a failure tells the candidates for the framework and the general ones, each place once.
Lookup falls back if and only if the general template is not masked by a place that was tried in
vain.  In memory, it never is; on a disk, it is masked if the name, as it is below the directory of
the framework, leads to its place, for which the name has to end with a slash or a dot and the two
have to overlap. -/
theorem resolve_fallsBack (hframework : e.framework = some framework) (hne : framework ≠ "")
    (hname : isValidName name = true) :
    (∀ (σ : Type) [FileStore σ] (w : Workspace σ),
      (∀ path, (((e.within framework).resolve name).on w).1 = .ok path →
        ((e.resolve name).on w).1 = .ok path) ∧
      (∀ f, ((e.resolve name).on w).1 = .error f → f = notFound name
        (dropRepeated [] ((e.within framework).candidates name ++ e.general.candidates name))) ∧
      (e.FallsBack framework name w ↔ ∀ path, ¬e.Masked framework name w path)) ∧
    (∀ w : Workspace MemoryStore, e.FallsBack framework name w) ∧
    ∀ w : Workspace Disk,
      (¬e.FallsBack framework name w ↔
        (∃ f, (((e.within framework).resolve name).on w).1 = .error f) ∧
          ∃ path, ((e.general.resolve name).on w).1 = .ok path ∧
            path.same ((e.within framework).base.join (.ofString name)) = true) ∧
      (¬e.Overlaps framework name → e.FallsBack framework name w) := by
  refine ⟨fun σ _ w => ⟨fun path hpath => ?_, fun f hf => ?_, fallsBack_iff hframework hne hname⟩,
    fun w => ?_, fun w => ⟨?_, fun hoverlaps => ?_⟩⟩
  · rw [resolve_eq_ok_iff _ hname] at hpath ⊢
    exact first?_of_within hframework hne hpath
  · rw [← (candidates_eq hframework hne).1]
    exact ((resolve_eq_error_iff _ hname w f).1 hf).2
  · exact (fallsBack_iff hframework hne hname).2 fun path => not_masked_in_memory w
  · rw [fallsBack_iff hframework hne hname]
    simp only [not_forall, not_not, masked_iff_on_disk, exists_and_left]
  · exact (fallsBack_iff hframework hne hname).2 fun path hmasked => hoverlaps hmasked.overlaps

/-- The one template of `plainDisk` is a general one. -/
theorem resolve_fallsBack_express : expressEngine.framework = some "express" ∧
    isValidName "a/x.ts" = true ∧
    ((expressEngine.resolve "a/x.ts").on (Workspace.mk plainDisk .empty)).1 =
      .ok (.ofString "t/a/x.ts.j2") := by
  have hname : isValidName "a/x.ts" = true := by decide
  obtain ⟨-, -, hdisk⟩ := resolve_fallsBack (e := expressEngine) rfl (by decide) hname
  have hback := (hdisk (Workspace.mk plainDisk .empty)).2 (by decide +kernel)
  refine ⟨rfl, hname, (hback.found _).2 (.inr ⟨?_, ?_⟩)⟩
  · rw [exists_resolve_eq_error_iff _ hname]
    decide +kernel
  · rw [resolve_eq_ok_iff _ hname]
    decide +kernel

/-- An engine whose framework is named like an extension. -/
def dottedEngine : Engine := ⟨.ofString "t", some ".jinja", .standard⟩

/-- A disk with one template, at the place to which the name `.jinja/` leads below the directory of
the framework. -/
def dottedDisk : Disk :=
  ⟨[(["t".toList], .directory true), (["t".toList, ".jinja".toList], .directory true),
    (["t".toList, ".jinja".toList, ".jinja".toList], .file "general".toUTF8)], []⟩

/-- **A general template that is masked**: nothing is found for the framework, and the template that
the general engine finds is not found either. -/
theorem resolve_masks : isValidName ".jinja/" = true ∧
    ((dottedEngine.resolve ".jinja/").on (Workspace.mk dottedDisk .empty)).1 =
      .error (notFound ".jinja/" (dottedEngine.candidates ".jinja/")) ∧
    (∃ f, (((dottedEngine.within ".jinja").resolve ".jinja/").on
      (Workspace.mk dottedDisk .empty)).1 = .error f) ∧
    ((dottedEngine.general.resolve ".jinja/").on (Workspace.mk dottedDisk .empty)).1 =
      .ok (.ofString "t/.jinja/.jinja") ∧
    ¬dottedEngine.FallsBack ".jinja" ".jinja/" (Workspace.mk dottedDisk .empty) := by
  have hname : isValidName ".jinja/" = true := by decide
  have hlost : dottedEngine.first? dottedDisk ".jinja/" = none := by decide +kernel
  have hgeneral : ((dottedEngine.general.resolve ".jinja/").on
      (Workspace.mk dottedDisk .empty)).1 = .ok (.ofString "t/.jinja/.jinja") := by
    rw [resolve_eq_ok_iff _ hname]
    decide +kernel
  have hwithin : ∃ f, (((dottedEngine.within ".jinja").resolve ".jinja/").on
      (Workspace.mk dottedDisk .empty)).1 = .error f := by
    rw [exists_resolve_eq_error_iff _ hname]
    decide +kernel
  refine ⟨hname, (resolve_eq_error_iff _ hname _ _).2 ⟨hlost, rfl⟩, hwithin, hgeneral,
    fun hback => ?_⟩
  have hfound := (hback.found _).2 (.inr ⟨hwithin, hgeneral⟩)
  rw [resolve_eq_ok_iff _ hname, hlost] at hfound
  cases hfound

end Engine

end ServiceScaffold.Template
