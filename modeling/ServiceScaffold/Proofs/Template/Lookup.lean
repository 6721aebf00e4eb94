import Mathlib.Data.List.TakeWhile
import ServiceScaffold.Proofs.FilePath
import ServiceScaffold.Proofs.Template.Repeated

/-!
# Candidates of a template stay inside

A valid template name keeps all paths at which the template is looked for inside the searched
directories: names of files and extensions added to them never make a step out.

* `FilePath.stays_iff` : a path stays inside if it is relative and no piece is a double dot;
* `Template.isBelow_of_mem_candidates` : **every candidate of a valid name lies below one of the
  searched directories.**
-/

namespace ServiceScaffold

namespace Text

variable {p : Char → Bool}

theorem mem_of_mem_splitOn {cs piece : List Char} (h : piece ∈ splitOn p cs) {c : Char}
    (hc : c ∈ piece) : c ∈ cs ∧ p c = false := by
  induction cs generalizing piece with
  | nil =>
    obtain rfl := List.mem_singleton.1 h
    simp at hc
  | cons x cs ih =>
    rw [splitOn] at h
    split_ifs at h with hx
    · obtain rfl | hrest := List.mem_cons.1 h
      · simp at hc
      · exact ⟨List.mem_cons_of_mem _ (ih hrest hc).1, (ih hrest hc).2⟩
    · rcases hsplit : splitOn p cs with _ | ⟨first, pieces⟩
      · exact absurd hsplit (splitOn_ne_nil p cs)
      · rw [hsplit] at h
        obtain rfl | hrest := List.mem_cons.1 h
        · obtain rfl | hfirst := List.mem_cons.1 hc
          · exact ⟨List.mem_cons_self, by simpa using hx⟩
          · have hmem := ih (hsplit ▸ List.mem_cons_self) hfirst
            exact ⟨List.mem_cons_of_mem _ hmem.1, hmem.2⟩
        · have hmem := ih (hsplit ▸ List.mem_cons_of_mem _ hrest) hc
          exact ⟨List.mem_cons_of_mem _ hmem.1, hmem.2⟩

/-- What holds no separator goes on with the last piece. -/
theorem splitOn_append {tail : List Char} (htail : ∀ c ∈ tail, p c = false) (cs : List Char) :
    ∃ init last, splitOn p cs = init ++ [last] ∧
      splitOn p (cs ++ tail) = init ++ [last ++ tail] := by
  induction cs with
  | nil => exact ⟨[], [], rfl, splitOn_eq_self htail⟩
  | cons c cs ih =>
    obtain ⟨init, last, hcs, happend⟩ := ih
    by_cases hc : p c = true
    · exact ⟨[] :: init, last, by simp [splitOn, hc, hcs], by simp [splitOn, hc, happend]⟩
    · cases init with
      | nil => exact ⟨[], c :: last, by simp [splitOn, hc, hcs], by simp [splitOn, hc, happend]⟩
      | cons first init =>
        exact ⟨(c :: first) :: init, last, by simp [splitOn, hc, hcs],
          by simp [splitOn, hc, happend]⟩

end Text

namespace FilePath

open Text

theorem isInner_ofPiece? {piece : List Char} {c : Component}
    (h : Component.ofPiece? piece = some c) : c.isInner = true ↔ piece ≠ ['.', '.'] := by
  unfold Component.ofPiece? at h
  split_ifs at h with hnone hparent
  · obtain rfl := Option.some.inj h
    simp [Component.isInner, hparent]
  · obtain rfl := Option.some.inj h
    simp [Component.isInner, hparent]

/-- A path stays inside if it is relative and no piece is a double dot. -/
theorem stays_iff (q : FilePath) : q.components.all Component.isInner = true ↔
    q.isAbsolute = false ∧ ['.', '.'] ∉ splitOn isSlash q.chars := by
  have hpieces : (innerOf q.chars).all Component.isInner = true ↔
      ['.', '.'] ∉ splitOn isSlash q.chars := by
    rw [List.all_eq_true]
    constructor
    · intro hall hmem
      have hparent : Component.parent ∈ innerOf q.chars := List.mem_filterMap.2 ⟨_, hmem, rfl⟩
      exact absurd (hall _ hparent) (by decide)
    · intro hno c hc
      obtain ⟨piece, hpiece, hof⟩ := List.mem_filterMap.1 hc
      exact (isInner_ofPiece? hof).2 fun hdots => hno (hdots ▸ hpiece)
  rw [components_eq, List.all_append, Bool.and_eq_true, hpieces, leading]
  split_ifs with habs hhere <;> simp [habs, Component.isInner]

end FilePath

namespace Template

open Text FilePath

variable {name : List Char}

/-- A name stays inside when an extension is added to it. -/
theorem stays_withExtension (h : (FilePath.mk name).components.all Component.isInner = true)
    (hne : name ≠ []) {extension : List Char} (he : extension ∈ extensions) :
    (FilePath.mk (withExtension name extension)).components.all Component.isInner = true := by
  have hextension : ∀ extension ∈ extensions,
      ('.' :: extension).all (!isSlash ·) = true ∧ 2 < ('.' :: extension).length := by decide
  obtain ⟨hall, hlong⟩ := hextension extension he
  have hplain : ∀ c ∈ '.' :: extension, isSlash c = false := fun c hc => by
    simpa using List.all_eq_true.1 hall c hc
  rw [stays_iff] at h ⊢
  -- only the last piece gets longer, so that it is no double dot
  obtain ⟨init, last, hname, hlast⟩ := splitOn_append hplain name
  refine ⟨?_, fun hmem => ?_⟩
  · obtain ⟨c, name, rfl⟩ := List.exists_cons_of_ne_nil hne
    exact h.1
  · obtain hinit | hdots := List.mem_append.1 (hlast ▸ hmem)
    · exact h.2 (hname ▸ List.mem_append_left _ hinit)
    · have hlength := congrArg List.length (List.mem_singleton.1 hdots)
      simp only [List.length_append, List.length_cons, List.length_nil] at hlength hlong
      omega

/-- What stands before the first dot of a name stays inside. -/
theorem stays_stemOf (h : (FilePath.mk name).isAbsolute = false) :
    (FilePath.mk (stemOf name)).components.all Component.isInner = true := by
  have hdot : ∀ c ∈ stemOf name, c ≠ '.' := fun c hc => by
    simpa using List.mem_takeWhile_imp hc
  rw [stays_iff]
  refine ⟨?_, fun hmem => ?_⟩
  · cases name with
    | nil => rfl
    | cons c name =>
      have hc : c ≠ '/' := by simpa [isAbsolute] using h
      unfold stemOf isAbsolute
      rw [List.takeWhile_cons]
      split_ifs <;> simp [hc]
  · exact hdot '.' (mem_of_mem_splitOn hmem (by simp)).1 rfl

/-- The file name of a path stays inside. -/
theorem stays_fileName? {rel : FilePath} {file : List Char} (h : rel.fileName? = some file) :
    file ≠ [] ∧ (FilePath.mk file).components.all Component.isInner = true := by
  obtain ⟨c, hlast, hname⟩ := Option.bind_eq_some_iff.1 h
  have hmem : Component.normal file ∈ rel.components := by
    cases c with
    | normal piece =>
      obtain rfl := Option.some.inj hname
      exact List.mem_of_getLast? hlast
    | _ => cases hname
  rw [components_eq] at hmem
  obtain hleading | hinner := List.mem_append.1 hmem
  · unfold leading at hleading
    split_ifs at hleading <;> simp at hleading
  · obtain ⟨piece, hpiece, hof⟩ := List.mem_filterMap.1 hinner
    have hslash : ∀ c ∈ piece, isSlash c = false := fun c hc => (mem_of_mem_splitOn hpiece hc).2
    have hdots := (isInner_ofPiece? hof).1 rfl
    unfold Component.ofPiece? at hof
    split_ifs at hof with hnone
    obtain rfl : piece = file := by simpa using hof
    refine ⟨fun hnil => hnone (.inl hnil), ?_⟩
    rw [stays_iff, splitOn_eq_self hslash]
    refine ⟨?_, fun hmem => hdots (List.mem_singleton.1 hmem).symm⟩
    cases piece with
    | nil => rfl
    | cons c piece => simpa [isAbsolute, isSlash] using hslash c List.mem_cons_self

variable {dir q : FilePath}

/-- The file in a directory named after its stem lies below the directory above. -/
theorem isBelow_nested {file extension : List Char} (hne : file ≠ [])
    (h : (FilePath.mk file).components.all Component.isInner = true)
    (he : extension ∈ extensions) :
    IsBelow dir ((dir.join ⟨stemOf file⟩).join ⟨withExtension file extension⟩) :=
  (isBelow_join dir (stays_stemOf ((stays_iff _).1 h).1)).trans
    (isBelow_join _ (stays_withExtension h hne he))

/-- The directories in which the file of a name may stand in a directory named after its stem: the
one that is searched, and that of the name there. -/
def Nests (dir : FilePath) (name : List Char) (base : FilePath) : Prop :=
  base = dir ∨ ∃ parent, (FilePath.mk name).parent? = some parent ∧ parent.chars ≠ [] ∧
    base = dir.join parent

/-- A path that is tried is the name, the name with an extension, or the file in a directory named
after its stem. -/
theorem patternsIn_cases (h : q ∈ patternsIn dir name) : q = dir.join ⟨name⟩ ∨
    ∃ extension ∈ extensions, q = dir.join ⟨withExtension name extension⟩ ∨
      ∃ base, Nests dir name base ∧
        q = (base.join ⟨stemOf ((FilePath.mk name).fileName?.getD name)⟩).join
          ⟨withExtension ((FilePath.mk name).fileName?.getD name) extension⟩ := by
  unfold patternsIn at h
  simp only [List.append_assoc] at h
  obtain hself | h := List.mem_append.1 h
  · exact .inl (List.mem_singleton.1 hself)
  obtain hwith | h := List.mem_append.1 h
  · obtain ⟨extension, he, rfl⟩ := List.mem_map.1 hwith
    exact .inr ⟨extension, he, .inl rfl⟩
  obtain hdir | hparent := List.mem_append.1 h
  · obtain ⟨extension, he, rfl⟩ := List.mem_map.1 hdir
    exact .inr ⟨extension, he, .inr ⟨dir, .inl rfl, rfl⟩⟩
  · split at hparent
    · rename_i parent hparent?
      split_ifs at hparent with hempty
      · cases hparent
      · obtain ⟨extension, he, rfl⟩ := List.mem_map.1 hparent
        exact .inr ⟨extension, he, .inr ⟨_, .inr ⟨parent, hparent?, by simpa using hempty, rfl⟩,
          rfl⟩⟩
    · cases hparent

/-- Every path that is tried for a name lies below the directory. -/
theorem isBelow_of_mem_patternsIn
    (h : (FilePath.mk name).components.all Component.isInner = true) (hne : name ≠ [])
    (hq : q ∈ patternsIn dir name) : IsBelow dir q := by
  obtain rfl | ⟨extension, he, rfl | ⟨base, hbase, rfl⟩⟩ := patternsIn_cases hq
  · exact isBelow_join dir h
  · exact isBelow_join dir (stays_withExtension h hne he)
  -- a valid name without a file name is tried as it is
  · have hfile : (FilePath.mk name).fileName?.getD name ≠ [] ∧
        (FilePath.mk ((FilePath.mk name).fileName?.getD name)).components.all Component.isInner =
          true := by
      rcases hname : (FilePath.mk name).fileName? with _ | file
      · exact ⟨hne, h⟩
      · exact stays_fileName? hname
    have hnested (base : FilePath) : IsBelow base ((base.join ⟨stemOf _⟩).join
        ⟨withExtension _ extension⟩) := isBelow_nested hfile.1 hfile.2 he
    obtain rfl | ⟨parent, hparent, -, rfl⟩ := hbase
    · exact hnested _
    · have hinner : parent.components.all Component.isInner = true := by
        rw [components_parent? hparent]
        exact List.all_eq_true.2 fun c hc => List.all_eq_true.1 h c (List.mem_of_mem_dropLast hc)
      exact (isBelow_join dir hinner).trans (hnested _)

theorem searchDirs_some (base : FilePath) {framework : String} (hne : framework ≠ "") :
    searchDirs base (some framework) = [base.join (.ofString framework), base] := by
  simp [searchDirs, hne]

/-- A valid name is not empty and stays inside. -/
theorem stays_of_isValidName {name : String} (h : isValidName name = true) :
    name.toList ≠ [] ∧ (FilePath.ofString name).components.all Component.isInner = true := by
  obtain ⟨hne, hinner⟩ := Bool.and_eq_true_iff.1 h
  refine ⟨fun hnil => ?_, hinner⟩
  simp [String.toList_eq_nil_iff.1 hnil] at hne

/-- **Every candidate of a valid name lies below one of the searched directories.** -/
theorem isBelow_of_mem_candidates {base : FilePath} {framework : Option String} {name : String}
    (h : isValidName name = true) (hq : q ∈ candidates base framework name) :
    ∃ dir ∈ searchDirs base framework, IsBelow dir q := by
  obtain ⟨hname, hinner⟩ := stays_of_isValidName h
  obtain hkept | hq := mem_of_mem_dropRepeated hq
  · cases hkept
  · obtain ⟨dir, hdir, hq⟩ := List.mem_flatMap.1 hq
    exact ⟨dir, hdir, isBelow_of_mem_patternsIn hinner hname hq⟩

end Template

end ServiceScaffold
