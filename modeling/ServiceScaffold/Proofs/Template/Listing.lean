import Mathlib.Data.List.Sort
import ServiceScaffold.Proofs.Store.Walking
import ServiceScaffold.Proofs.Template.Directories
import ServiceScaffold.Proofs.Template.Engine
import ServiceScaffold.Proofs.Text.Occurrence

/-!
# Templates that are listed

The names of all templates below a directory are made from the files that stand there, and a name
leads back to its file unless the file name without its extension is a dot or a double dot, which
is no name at all.

* `FilePath.splitName_eq_some`, `FilePath.splitName_append` : a file name and its extension;
* `KeepsName` : a file goes down from the base and keeps a name without its extension;
* `places_of_mem_patternsIn` : the places of a template whose name is made of names;
* `exists_candidate_iff` : **a file is one of the candidates of its name if and only if it keeps
  its name**;
* `Engine.find_of_keepsName` : a file that keeps its name is found, or another one before it;
* `Engine.listed_found` : **the names that are listed rise, and each is found again if a file that
  stands keeps it**, in memory and on a disk.
-/

namespace ServiceScaffold

namespace FilePath

open Text

variable {name stem extension : List Char}

/-- A file name with an extension is what stands before its last dot, and what stands after it. -/
theorem splitName_eq_some (h : splitName name = (stem, some extension)) :
    name = stem ++ '.' :: extension ∧ stem ≠ [] := by
  unfold splitName at h
  split_ifs at h
  · simp at h
  · split at h
    · simp at h
    · rename_i front rest hnil hcut
      obtain ⟨rfl, hrest⟩ := Prod.mk.inj h
      obtain rfl := Option.some.inj hrest
      exact ⟨by simpa using cutLast?_eq_some hcut, fun hfront => hnil hfront⟩
    · simp at h

theorem splitName_append (hstem : stem ≠ []) (hne : extension ≠ []) (hdot : '.' ∉ extension) :
    splitName (stem ++ '.' :: extension) = (stem, some extension) := by
  have hdots : stem ++ '.' :: extension ≠ ['.', '.'] := fun hdots => by
    have hlength := congrArg List.length hdots
    have hstem' := List.length_pos_iff.2 hstem
    have hne' := List.length_pos_iff.2 hne
    simp only [List.length_append, List.length_cons, List.length_nil] at hlength
    omega
  rw [splitName, if_neg hdots, cutLast?_append_cons hdot]
  obtain ⟨c, stem, rfl⟩ := List.exists_cons_of_ne_nil hstem
  rfl

end FilePath

namespace Template

open Text FilePath

variable {base dir file q : FilePath} {name : String} {front names : List (List Char)}
  {last stem extension : List Char}

/-- The extensions of template files are short names without a dot. -/
theorem extension_spec (he : extension ∈ extensions) :
    IsName extension ∧ '.' ∉ extension ∧ ∀ c ∈ '.' :: extension, isSlash c = false := by
  have hall : ∀ extension ∈ extensions, IsName extension ∧ '.' ∉ extension := by decide
  obtain ⟨hname, hdot⟩ := hall extension he
  exact ⟨hname, hdot, List.forall_mem_cons.2 ⟨rfl, hname.noSlash⟩⟩

theorem isName_withExtension (h : IsName stem) (he : extension ∈ extensions) :
    IsName (withExtension stem extension) := by
  obtain ⟨hname, -, hslash⟩ := extension_spec he
  refine h.append hslash fun hdot => hname.ne_nil ?_
  simpa using hdot

/-- A file name tells what stands before its extension. -/
theorem withExtension_inj {stem' extension' : List Char} (hstem : stem ≠ []) (hstem' : stem' ≠ [])
    (he : extension ∈ extensions) (he' : extension' ∈ extensions)
    (h : withExtension stem extension = withExtension stem' extension') : stem = stem' := by
  have hsplit {s e : List Char} (hs : s ≠ []) (he : e ∈ extensions) :
      splitName (withExtension s e) = (s, some e) :=
    splitName_append hs (extension_spec he).1.ne_nil (extension_spec he).2.1
  have hsame := hsplit hstem he
  rw [h, hsplit hstem' he'] at hsame
  exact (Prod.mk.inj hsame).1.symm

/-- The file goes down from the base, and without its extension its name is a name still. -/
structure KeepsName (base file : FilePath) : Prop where
  goesDown : GoesDown base file
  stem : ∀ stem, file.fileStem? = some stem → stem ≠ ['.'] ∧ stem ≠ ['.', '.']

/-- A template is named after the names on the way to its file, the last without its extension,
where a dot or a double dot that is left is no name. -/
theorem nameOf?_eq_some (h : nameOf? base file = some name) :
    ∃ way stem extension, file.components =
        base.components ++ (way ++ [.normal (withExtension stem extension)]) ∧
      file.fileStem? = some stem ∧ extension ∈ extensions ∧
      (IsName stem ∧ name.toList = joinWith ['/'] (way.filterMap Component.name? ++ [stem]) ∨
        (stem = ['.'] ∨ stem = ['.', '.']) ∧ way.filterMap Component.name? ≠ [] ∧
          name.toList = joinWith ['/'] (way.filterMap Component.name?)) := by
  obtain ⟨below, hbelow, h⟩ := Option.bind_eq_some_iff.1 h
  obtain ⟨c, hlast, h⟩ := Option.bind_eq_some_iff.1 h
  obtain ⟨last, hname, h⟩ := Option.bind_eq_some_iff.1 h
  rcases hsplit : splitName last with ⟨stem, extension?⟩
  rw [hsplit] at h
  obtain ⟨extension, rfl, hparts⟩ := Option.bind_eq_some_iff.1 h
  dsimp only at hparts
  split_ifs at hparts with hunknown hnil hnil
  · cases hparts
  · cases hparts
  have hknown : extension ∈ extensions := by simpa using hunknown
  obtain ⟨rfl, hstem⟩ := splitName_eq_some hsplit
  obtain rfl := Component.name?_eq_some.1 hname
  have hcomponents : file.components = base.components ++
      (below.dropLast ++ [.normal (stem ++ '.' :: extension)]) := by
    rw [List.dropLast_append_getLast? _ hlast]
    exact (List.isPrefixOf?_eq_some_iff_append_eq.1 hbelow).symm
  have hwhole : IsName (stem ++ '.' :: extension) :=
    isName_of_mem_components (p := file) (by rw [hcomponents]; simp)
  have htext := congrArg String.toList (Option.some.inj hparts).symm
  rw [String.toList_ofList] at htext
  refine ⟨below.dropLast, stem, extension, hcomponents, ?_, hknown, ?_⟩
  · rw [fileStem?, fileName?, hcomponents, ← List.append_assoc, List.getLast?_concat]
    simp [Component.name?, hsplit]
  by_cases hdots : stem = ['.'] ∨ stem = ['.', '.']
  · right
    have hnone : ((Component.ofPiece? stem).bind Component.name?).toList = [] := by
      obtain rfl | rfl := hdots <;> rfl
    rw [hnone, List.append_nil] at htext hnil
    exact ⟨hdots, by simpa using hnil, htext⟩
  · have hname : IsName stem := by
      refine ⟨fun c hc => hwhole.noSlash c (List.mem_append_left _ hc), ?_⟩
      simpa [hstem] using hdots
    rw [hname.ofPiece?] at htext
    exact .inl ⟨hname, htext⟩

theorem nameOf?_congr (base : FilePath) (h : file.same q = true) :
    nameOf? base file = nameOf? base q := by
  rw [nameOf?, nameOf?, componentsBelow?, componentsBelow?, same_iff.1 h]

/-! ### The places of a name -/

theorem withExtension_joinWith (front : List (List Char)) (last extension : List Char) :
    withExtension (joinWith ['/'] (front ++ [last])) extension =
      joinWith ['/'] (front ++ [withExtension last extension]) :=
  (joinWith_concat_append _ _ _ _).symm

theorem exists_joinWith_eq (front : List (List Char)) (last : List Char) :
    ∃ start, joinWith ['/'] (front ++ [last]) = start ++ last :=
  ⟨_, joinWith_concat_append ['/'] front [] last⟩

/-- The places of a template whose name is made of names may hold a file: they go down from the
directory to that name, as it is or with an extension. -/
theorem places_of_mem_patternsIn (hfront : ∀ n ∈ front, IsName n) (hlast : IsName last)
    (hq : q ∈ patternsIn dir (joinWith ['/'] (front ++ [last]))) :
    Disk.wantsDirectory q = false ∧
      ∃ names : List (List Char), q.components = dir.components ++ names.map .normal ∧
        (names = front ++ [last] ∨
          ∃ extension ∈ extensions, names.getLast? = some (withExtension last extension)) := by
  have hall {last : List Char} (h : IsName last) :
      (FilePath.mk (joinWith ['/'] (front ++ [last]))).components =
        (front ++ [last]).map .normal :=
    components_ofNames (by simp) fun n hn => (List.mem_append.1 hn).elim (hfront n)
      fun hn => List.mem_singleton.1 hn ▸ h
  have hfile : (FilePath.mk (joinWith ['/'] (front ++ [last]))).fileName? = some last := by
    rw [fileName?, hall hlast, List.map_append, List.map_singleton, List.getLast?_concat]
    rfl
  have hplain {last : List Char} (h : IsName last) (base : FilePath) (front : List (List Char)) :
      Disk.wantsDirectory (base.join ⟨joinWith ['/'] (front ++ [last])⟩) = false := by
    obtain ⟨start, hstart⟩ := exists_joinWith_eq front last
    obtain ⟨before, hbefore⟩ := base.exists_join_eq ⟨joinWith ['/'] (front ++ [last])⟩
    rw [hbefore, hstart, ← List.append_assoc]
    exact Disk.wantsDirectory_append_name h _
  have hstem : ∃ names : List (List Char),
      (FilePath.mk (stemOf last)).components = names.map .normal := by
    by_cases hnil : stemOf last = []
    · exact ⟨[], by rw [hnil]; rfl⟩
    · have hname : IsName (stemOf last) := by
        refine ⟨fun c hc => hlast.noSlash c (List.takeWhile_subset _ hc), ?_⟩
        have hdot : '.' ∉ stemOf last := fun hmem => by
          simpa using List.mem_takeWhile_imp hmem
        simp only [List.mem_cons, List.not_mem_nil, or_false, not_or]
        exact ⟨hnil, fun h => hdot (by simp [h]), fun h => hdot (by simp [h])⟩
      exact ⟨[stemOf last], hname.components⟩
  obtain rfl | ⟨extension, he, rfl | ⟨base, hbase, rfl⟩⟩ := patternsIn_cases hq
  · exact ⟨hplain hlast dir front, front ++ [last], components_join_names _ (hall hlast), .inl rfl⟩
  · have hname := isName_withExtension hlast he
    rw [withExtension_joinWith]
    exact ⟨hplain hname dir front, front ++ [withExtension last extension],
      components_join_names _ (hall hname), .inr ⟨extension, he, List.getLast?_concat⟩⟩
  -- the file in a directory named after its stem, here or below the parent
  · obtain ⟨way, hway⟩ : ∃ way : List (List Char),
        base.components = dir.components ++ way.map .normal := by
      obtain rfl | ⟨parent, hparent, -, rfl⟩ := hbase
      · exact ⟨[], by simp⟩
      · refine ⟨front, components_join_names dir ?_⟩
        rw [components_parent? hparent, hall hlast, List.map_append, List.map_singleton,
          List.dropLast_concat]
    obtain ⟨names, hnames⟩ := hstem
    have hname := isName_withExtension hlast he
    rw [hfile, Option.getD_some]
    refine ⟨hplain hname _ [], way ++ names ++ [withExtension last extension], ?_,
      .inr ⟨extension, he, List.getLast?_concat⟩⟩
    rw [components_join_name _ hname.components, components_join_names _ hnames, hway]
    simp only [List.map_append, List.map_cons, List.map_nil, List.append_assoc]

/-- The place of a name with an extension is tried in every directory. -/
theorem exists_mem_patternsIn (dir : FilePath) (hfront : ∀ n ∈ front, IsName n)
    (hlast : IsName last)
    (he : extension ∈ extensions) : ∃ q ∈ patternsIn dir (joinWith ['/'] (front ++ [last])),
      q.components = dir.components ++ (front ++ [withExtension last extension]).map .normal := by
  refine ⟨dir.join ⟨withExtension (joinWith ['/'] (front ++ [last])) extension⟩, ?_, ?_⟩
  · unfold patternsIn
    simp only [List.append_assoc]
    exact List.mem_append_right _ (List.mem_append_left _ (List.mem_map_of_mem he))
  · rw [withExtension_joinWith]
    refine components_join_names dir (components_ofNames (by simp) fun n hn => ?_)
    obtain hn | hn := List.mem_append.1 hn
    · exact hfront n hn
    · exact List.mem_singleton.1 hn ▸ isName_withExtension hlast he

/-! ### Files that keep their names -/

/-- The name of a template is made of names. -/
theorem exists_names_of_nameOf? (h : nameOf? base file = some name) :
    ∃ front last, (∀ n ∈ front, IsName n) ∧ IsName last ∧
      name.toList = joinWith ['/'] (front ++ [last]) := by
  obtain ⟨way, stem, extension, hcomponents, -, -, hcases⟩ := nameOf?_eq_some h
  have hway : ∀ n ∈ way.filterMap Component.name?, IsName n := fun n hn => by
    obtain ⟨c, hc, hname⟩ := List.mem_filterMap.1 hn
    obtain rfl := Component.name?_eq_some.1 hname
    refine isName_of_mem_components (p := file) ?_
    rw [hcomponents]
    simp [hc]
  obtain ⟨hname, htext⟩ | ⟨-, hne, htext⟩ := hcases
  · exact ⟨_, stem, hway, hname, htext⟩
  · obtain ⟨front, last, hconcat⟩ := (List.eq_nil_or_concat' _).resolve_left hne
    rw [hconcat] at hway htext
    exact ⟨front, last, fun n hn => hway n (List.mem_append_left _ hn), hway last (by simp), htext⟩

theorem isValidName_of_nameOf? (h : nameOf? base file = some name) : isValidName name = true := by
  obtain ⟨front, last, hfront, hlast, htext⟩ := exists_names_of_nameOf? h
  have hcomponents : (FilePath.ofString name).components = (front ++ [last]).map .normal := by
    rw [FilePath.ofString, htext]
    refine components_ofNames (by simp) fun n hn => ?_
    exact (List.mem_append.1 hn).elim (hfront n) fun hn => List.mem_singleton.1 hn ▸ hlast
  have hne : name.isEmpty = false := by
    rw [Bool.eq_false_iff, ne_eq, String.isEmpty_iff]
    rintro rfl
    have hlength := congrArg List.length hcomponents
    simp [FilePath.ofString, FilePath.components_eq_nil.2] at hlength
  rw [isValidName, hne, hcomponents]
  simp [Component.isInner]

theorem base_mem_searchDirs (base : FilePath) (framework : Option String) :
    base ∈ searchDirs base framework := by
  unfold searchDirs
  split
  · split_ifs <;> simp
  · simp

/-- All candidates of the name of a file are paths that may lead to a file. -/
theorem wantsDirectory_of_mem_candidates {framework : Option String}
    (h : nameOf? base file = some name) (hq : q ∈ candidates base framework name) :
    Disk.wantsDirectory q = false := by
  obtain ⟨front, last, hfront, hlast, htext⟩ := exists_names_of_nameOf? h
  obtain ⟨dir, -, hpattern⟩ :=
    List.mem_flatMap.1 ((mem_of_mem_dropRepeated hq).resolve_left List.not_mem_nil)
  exact (places_of_mem_patternsIn hfront hlast (htext ▸ hpattern)).1

/-- A file that keeps its name is one of the candidates of its name, under a path that may lead to a
file. -/
theorem exists_candidate_of_keepsName (framework : Option String)
    (h : nameOf? base file = some name) (hkeeps : KeepsName base file) :
    ∃ q ∈ candidates base framework name,
      q.same file = true ∧ Disk.wantsDirectory q = false := by
  obtain ⟨way, stem, extension, hcomponents, hstem, he, hcases⟩ := nameOf?_eq_some h
  obtain ⟨hname, htext⟩ : IsName stem ∧
      name.toList = joinWith ['/'] (way.filterMap Component.name? ++ [stem]) :=
    hcases.resolve_right fun hdots =>
      hdots.1.elim (hkeeps.stem stem hstem).1 (hkeeps.stem stem hstem).2
  obtain ⟨names, hnames⟩ := hkeeps.goesDown
  -- the way to the file consists of names
  have hway : way ++ [.normal (withExtension stem extension)] = names.map .normal :=
    List.append_cancel_left (hcomponents.symm.trans hnames)
  obtain ⟨front, whole, rfl, rfl, hwhole⟩ := List.append_eq_map_iff.1 hway
  have hfront : ((front.map Component.normal).filterMap Component.name?) = front := by
    simp [List.filterMap_map, Function.comp_def, Component.name?]
  have hfile : ∀ n ∈ front, IsName n := fun n hn =>
    isName_of_mem_components (p := file) (by rw [hcomponents]; simp [hn])
  rw [hfront] at htext
  obtain ⟨q, hq, hplace⟩ := exists_mem_patternsIn base hfile hname he
  have hmem : q ∈ (searchDirs base framework).flatMap (patternsIn · name.toList) :=
    List.mem_flatMap.2 ⟨base, base_mem_searchDirs base framework, htext ▸ hq⟩
  obtain ⟨q', hq', hsame⟩ := exists_same_of_mem (Or.inr (a := _ ∈ []) hmem)
  refine ⟨q', hq', ?_, wantsDirectory_of_mem_candidates h hq'⟩
  rw [same_iff] at hsame ⊢
  rw [hsame, hplace, hcomponents]
  simp

/-- **A file is one of the candidates of its name if and only if it keeps its name.** -/
theorem exists_candidate_iff (h : nameOf? base file = some name) :
    (∃ q ∈ candidates base none name, q.same file = true) ↔ KeepsName base file := by
  refine ⟨fun ⟨q, hq, hsame⟩ => ?_, fun hkeeps => ?_⟩
  · obtain ⟨front, last, hfront, hlast, htext⟩ := exists_names_of_nameOf? h
    have hpattern : q ∈ patternsIn base name.toList := by
      simpa [searchDirs] using (mem_of_mem_dropRepeated hq).resolve_left List.not_mem_nil
    obtain ⟨-, names, hplace, hnames⟩ :=
      places_of_mem_patternsIn hfront hlast (htext ▸ hpattern)
    rw [same_iff] at hsame
    refine ⟨⟨names, hsame ▸ hplace⟩, ?_⟩
    obtain ⟨way, stem, extension, hcomponents, hstem, he, hcases⟩ := nameOf?_eq_some h
    have hway : way ++ [.normal (withExtension stem extension)] = names.map .normal :=
      List.append_cancel_left (hcomponents.symm.trans (hsame ▸ hplace))
    obtain ⟨init, whole, rfl, rfl, hwhole⟩ := List.append_eq_map_iff.1 hway
    obtain rfl : whole = [withExtension stem extension] := by
      obtain ⟨w, rest, rfl, hw, hrest⟩ := List.map_eq_cons_iff.1 hwhole
      obtain rfl := List.map_eq_nil_iff.1 hrest
      rw [Component.normal.inj hw]
    intro stem' hstem'
    obtain rfl := Option.some.inj (hstem.symm.trans hstem')
    obtain ⟨hname, -⟩ | ⟨hdots, hne, htext'⟩ := hcases
    · exact ⟨fun h => hname.counts (by simp [h]), fun h => hname.counts (by simp [h])⟩
    -- a dot that is left is no name: the name leads to a directory above the file, or to a file
    -- whose name goes on after it
    exfalso
    have hinit : ∀ n ∈ init, IsName n := fun n hn =>
      isName_of_mem_components (p := file) (by rw [hcomponents]; simp [hn])
    have hfilter : (init.map Component.normal).filterMap Component.name? = init := by
      simp [List.filterMap_map, Function.comp_def, Component.name?]
    rw [hfilter] at htext' hne
    have hsame : init = front ++ [last] := by
      refine joinWith_names_inj hne (by simp) hinit (fun n hn => ?_) (htext'.symm.trans htext)
      exact (List.mem_append.1 hn).elim (hfront n) fun hn => List.mem_singleton.1 hn ▸ hlast
    obtain heq | ⟨extension', he', hlast'⟩ := hnames
    · rw [← hsame] at heq
      simp at heq
    · rw [List.getLast?_concat] at hlast'
      have hstems := withExtension_inj (by obtain rfl | rfl := hdots <;> simp) hlast.ne_nil he he'
        (Option.some.inj hlast')
      obtain rfl := hstems
      obtain rfl | rfl := hdots
      · exact hlast.counts (by simp)
      · exact hlast.counts (by simp)
  · obtain ⟨q, hq, hsame, -⟩ := exists_candidate_of_keepsName none h hkeeps
    exact ⟨q, hq, hsame⟩

namespace Engine

variable {σ : Type} [FileStore σ] {e : Engine} {store : σ}

/-- A template is found if a file stands that keeps its name. -/
theorem find_of_keepsName (hstore : FileStore.IsLawful store)
    (hfile : FileStore.isFile store file = true) (h : nameOf? e.base file = some name)
    (hkeeps : KeepsName e.base file) : ∃ path, e.find store name = .ok path := by
  obtain ⟨q, hq, hsame, hplain⟩ := exists_candidate_of_keepsName e.framework h hkeeps
  have hq' : FileStore.isFile store q = true := by
    refine hstore.same hfile ?_ hplain
    rw [same_iff] at hsame ⊢
    exact hsame.symm
  have hfound : ((e.candidates name).find? (FileStore.isFile store)).isSome = true :=
    List.find?_isSome.2 ⟨q, hq, hq'⟩
  obtain ⟨path, hpath⟩ := Option.isSome_iff_exists.1 hfound
  refine ⟨path, ?_⟩
  rw [Engine.find, if_pos (isValidName_of_nameOf? h), hpath]

/-! ### Listing -/

theorem mem_sortedNames {names : List String} : name ∈ sortedNames names ↔ name ∈ names := by
  rw [sortedNames, Keyed.mem_keys_sortedFields, Keyed.keys, List.map_map]
  simp [Function.comp_def]

theorem sortedNames_congr {names names' : List String} (h : ∀ name, name ∈ names ↔ name ∈ names') :
    sortedNames names = sortedNames names' := by
  refine (Keyed.sorted_sortedFields _).eq_of_mem_iff (Keyed.sorted_sortedFields _) fun name => ?_
  exact (mem_sortedNames.trans (h name)).trans mem_sortedNames.symm

/-- The directory whose templates are listed. -/
def root (e : Engine) (dir : String) : FilePath :=
  if dir.isEmpty then e.base else e.base.join (.ofString dir)

theorem namesIn_eq (e : Engine) (store : σ) (dir : String) : e.namesIn store dir =
    if dir.isEmpty || isValidName dir then
      match FileStore.files store (e.root dir) with
      | .ok files => .ok (sortedNames (files.filterMap (nameOf? e.base)))
      | .error p => .error (unlistable (e.root dir) p)
    else .error (invalidDirectory dir) := rfl

theorem namesIn_of_files {dir : String} {files : List FilePath}
    (hdir : (dir.isEmpty || isValidName dir) = true)
    (hfiles : FileStore.files store (e.root dir) = .ok files) :
    e.namesIn store dir = .ok (sortedNames (files.filterMap (nameOf? e.base))) := by
  rw [namesIn_eq, if_pos hdir, hfiles]

/-- The names that the engine lists rise, each is that of a file that stands, and it is found again
if a file that stands keeps it. -/
def FindsListed (e : Engine) (w : Workspace σ) : Prop :=
  ∀ dir names w', (e.list dir).on w = (.ok names, w') →
    names.Pairwise (· < ·) ∧ ∀ name ∈ names,
      (∃ file, FileStore.isFile w.store file = true ∧ nameOf? e.base file = some name) ∧
      ((∃ file, FileStore.isFile w.store file = true ∧ nameOf? e.base file = some name ∧
          KeepsName e.base file) →
        ∃ path, ((e.resolve name).on w').1 = .ok path)

theorem findsListed_of_isLawful {w : Workspace σ} (h : FileStore.IsLawful w.store) :
    e.FindsListed w := by
  intro dir names w' hlist
  rw [on_list, namesIn_eq] at hlist
  obtain ⟨hnames, rfl⟩ := Prod.mk.inj hlist
  split_ifs at hnames
  rcases hfiles : FileStore.files w.store (e.root dir) with p | files
  · simp [hfiles] at hnames
  rw [hfiles] at hnames
  obtain rfl := Except.ok.inj hnames
  refine ⟨Keyed.sorted_sortedFields _, fun name hname => ⟨?_, ?_⟩⟩
  · obtain ⟨file, hmem, hof⟩ := List.mem_filterMap.1 (mem_sortedNames.1 hname)
    exact ⟨file, h.listed hfiles file hmem, hof⟩
  · rintro ⟨file, hfile, hof, hkeeps⟩
    exact find_of_keepsName h hfile hof hkeeps

/-- **The names that are listed** rise, and each is found again if a file that stands keeps it, in
memory and on a disk; a file keeps its name if and only if it is one of the candidates of it. -/
theorem listed_found (e : Engine) :
    (∀ file name, nameOf? e.base file = some name →
      ((∃ q ∈ Template.candidates e.base none name, q.same file = true) ↔
        KeepsName e.base file)) ∧
    (∀ w : Workspace MemoryStore, e.FindsListed w) ∧
    ∀ w : Workspace Disk, w.store.IsProper → e.FindsListed w :=
  ⟨fun _ _ => exists_candidate_iff, fun w => findsListed_of_isLawful w.store.isLawful,
    fun _ h => findsListed_of_isLawful h.isLawful⟩

/-- An engine that looks for templates below one directory. -/
def below (base : String) : Engine := ⟨.ofString base, none, .standard⟩

/-- A disk with a template below `t`. -/
def plainDisk : Disk :=
  ⟨[(["t".toList], .directory true), (["t".toList, "a".toList], .directory true),
    (["t".toList, "a".toList, "x.ts.j2".toList], .file "".toUTF8)], []⟩

theorem listed_found_below : plainDisk.IsProper ∧
    ((below "t").list "").on (Workspace.mk plainDisk .empty) =
      (.ok ["a/x.ts"], ⟨plainDisk, .empty⟩) ∧
    ∃ path, (((below "t").resolve "a/x.ts").on (Workspace.mk plainDisk .empty)).1 = .ok path := by
  have hproper : plainDisk.IsProper := by decide +kernel
  have hfiles : FileStore.files plainDisk ((below "t").root "") =
      .ok [.ofString "t/a/x.ts.j2"] := by decide +kernel
  have hnames : sortedNames ([.ofString "t/a/x.ts.j2"].filterMap (nameOf? (below "t").base)) =
      ["a/x.ts"] := by decide +kernel
  have hlist : ((below "t").list "").on (Workspace.mk plainDisk .empty) =
      (.ok ["a/x.ts"], ⟨plainDisk, .empty⟩) := by
    rw [on_list, namesIn_of_files (by decide) hfiles, hnames]
  have hkeeps : KeepsName (below "t").base (.ofString "t/a/x.ts.j2") :=
    ⟨⟨["a".toList, "x.ts.j2".toList], by decide +kernel⟩, by decide +kernel⟩
  obtain ⟨-, hfound⟩ := (listed_found (below "t")).2.2 ⟨plainDisk, .empty⟩ hproper "" _ _ hlist
  exact ⟨hproper, hlist, (hfound "a/x.ts" (by simp)).2
    ⟨.ofString "t/a/x.ts.j2", by decide +kernel, by decide +kernel, hkeeps⟩⟩

/-- Files in memory, one of them with a name that is nothing but dots and an extension. -/
def dottedStore : MemoryStore := MemoryStore.empty.insert (.ofString "t/a/..j2") "text"

/-- The template is listed under the name of its directory, where it is not found. -/
theorem listed_not_found :
    ((below "t").list "").on (Workspace.mk dottedStore .empty) =
      (.ok ["a"], ⟨dottedStore, .empty⟩) ∧
    (((below "t").resolve "a").on (Workspace.mk dottedStore .empty)).1 =
      .error (notFound "a" ((below "t").candidates "a")) := by
  have hfiles : FileStore.files dottedStore ((below "t").root "") =
      .ok [.ofString "t/a/..j2"] := by decide +kernel
  have hnames : sortedNames ([.ofString "t/a/..j2"].filterMap (nameOf? (below "t").base)) =
      ["a"] := by decide +kernel
  have hnone : ((below "t").candidates "a").find? (FileStore.isFile dottedStore) = none := by
    decide +kernel
  refine ⟨by rw [on_list, namesIn_of_files (by decide) hfiles, hnames], ?_⟩
  rw [on_resolve, Engine.find, if_pos (by decide +kernel), hnone]

end Engine

end Template

end ServiceScaffold
