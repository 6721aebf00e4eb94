import ServiceScaffold.Proofs.Store.Memory
import ServiceScaffold.Proofs.Template.Lookup
import ServiceScaffold.Template.Engine

/-!
# Engines that search the same directories

Where an engine looks for a template is told by the directories that it searches: the ways from
there to the places of a template are the same in every directory.

* `waysTo`, `patternsIn_eq` : the ways from a searched directory to the places of a template;
* `Engine.LooksAt` : a place is one of those where an engine looks for a template;
* `Engine.SearchesLike` : every directory that an engine searches is one that another searches;
* `Engine.LooksAt.of_searchesLike` : **then every place where the first looks for a template is one
  where the other looks for it**;
* `Engine.mem_searchDirs_of_looksAt` : and only then, as the place of a name tells its directory.
-/

namespace ServiceScaffold

namespace FilePath

open Text

variable {dir dir' : FilePath}

/-- Two directories that are one place lead by one way to one place. -/
theorem same_join (h : dir.same dir' = true) (q : FilePath) :
    (dir.join q).same (dir'.join q) = true := by
  rw [same_iff] at h ⊢
  by_cases habs : q.isAbsolute = true
  · rw [join_of_isAbsolute habs, join_of_isAbsolute habs]
  have hempty : dir.chars = [] ↔ dir'.chars = [] := by
    rw [← components_eq_nil, h, components_eq_nil]
  by_cases hdir : dir.chars = []
  · rw [join_of_empty hdir, join_of_empty (hempty.1 hdir)]
  · rw [components_join hdir (by simpa using habs),
      components_join (fun hdir' => hdir (hempty.2 hdir')) (by simpa using habs), h]

theorem same_foldl_join (h : dir.same dir' = true) (way : List FilePath) :
    (way.foldl join dir).same (way.foldl join dir') = true := by
  induction way generalizing dir dir' with
  | nil => exact h
  | cons q way ih => exact ih (same_join h q)

end FilePath

namespace Template

open FilePath

/-! ### Ways from a directory -/

/-- The ways from a searched directory to the paths that may hold a template. -/
def waysTo (name : List Char) : List (List FilePath) :=
  let rel : FilePath := ⟨name⟩
  let file := rel.fileName?.getD name
  let nested (way : List FilePath) : List (List FilePath) :=
    extensions.map fun e => way ++ [⟨stemOf file⟩, ⟨withExtension file e⟩]
  let below := match rel.parent? with
    | some parent => if parent.chars.isEmpty then [] else nested [parent]
    | none => []
  [[rel]] ++ extensions.map (fun e => [⟨withExtension name e⟩]) ++ nested [] ++ below

/-- The places of a template are the ends of the same ways in every directory. -/
theorem patternsIn_eq (dir : FilePath) (name : List Char) :
    patternsIn dir name = (waysTo name).map (·.foldl join dir) := by
  unfold patternsIn waysTo
  simp only [List.map_append, List.map_cons, List.map_map, Function.comp_def,
    List.foldl_cons, List.foldl_nil, List.nil_append, List.cons_append]
  congr 2
  rcases (FilePath.mk name).parent? with _ | parent
  · rfl
  · simp only
    split_ifs
    · rfl
    · simp only [List.map_map, Function.comp_def, List.foldl_cons, List.foldl_nil]

variable {e e' : Engine} {name : String} {p q : FilePath}

namespace Engine

/-! ### Where an engine looks -/

/-- The place is one of those where the engine looks for the template. -/
def LooksAt (e : Engine) (name : String) (p : FilePath) : Prop :=
  ∃ q ∈ e.candidates name, q.same p = true

/-- Every directory that `e` searches is one that `e'` searches. -/
def SearchesLike (e e' : Engine) : Prop :=
  ∀ dir ∈ searchDirs e.base e.framework,
    ∃ dir' ∈ searchDirs e'.base e'.framework, dir.same dir' = true

instance : Decidable (SearchesLike e e') := by
  unfold SearchesLike
  infer_instance

theorem LooksAt.of_mem (h : p ∈ e.candidates name) : e.LooksAt name p := ⟨p, h, same_self p⟩

/-- An engine looks for a template at the ends of the ways from its directories. -/
theorem looksAt_iff : e.LooksAt name p ↔ ∃ dir ∈ searchDirs e.base e.framework,
    ∃ way ∈ waysTo name.toList, (way.foldl join dir).same p = true := by
  constructor
  · rintro ⟨q, hq, hsame⟩
    obtain hkept | hpath := mem_of_mem_dropRepeated hq
    · cases hkept
    · obtain ⟨dir, hdir, hpattern⟩ := List.mem_flatMap.1 hpath
      rw [patternsIn_eq] at hpattern
      obtain ⟨way, hway, rfl⟩ := List.mem_map.1 hpattern
      exact ⟨dir, hdir, way, hway, hsame⟩
  · rintro ⟨dir, hdir, way, hway, hsame⟩
    have hpattern : way.foldl join dir ∈ patternsIn dir name.toList := by
      rw [patternsIn_eq]
      exact List.mem_map_of_mem hway
    have hpath : way.foldl join dir ∈
        (searchDirs e.base e.framework).flatMap (patternsIn · name.toList) :=
      List.mem_flatMap.2 ⟨dir, hdir, hpattern⟩
    obtain ⟨q, hq, hsame'⟩ := exists_same_of_mem (Or.inr (a := _ ∈ []) hpath)
    exact ⟨q, hq, same_trans hsame' hsame⟩

/-- **Where one engine looks for a template**, an engine that searches its directories looks for it
too. -/
theorem LooksAt.of_searchesLike (h : e.SearchesLike e') (hlooks : e.LooksAt name p) :
    e'.LooksAt name p := by
  obtain ⟨dir, hdir, way, hway, hsame⟩ := looksAt_iff.1 hlooks
  obtain ⟨dir', hdir', hdirs⟩ := h dir hdir
  refine looksAt_iff.2 ⟨dir', hdir', way, hway, ?_⟩
  rw [same_iff] at hsame ⊢
  rw [← hsame, same_iff.1 (same_foldl_join hdirs way)]

/-- An engine looks for a short name at the name in a directory only if it searches the directory:
all other ways end in another name. -/
theorem mem_searchDirs_of_looksAt {dir : FilePath} (h : e.LooksAt "a" (dir.join ⟨['a']⟩)) :
    ∃ dir' ∈ searchDirs e.base e.framework, dir.same dir' = true := by
  obtain ⟨dir', hdir', way, hway, hsame⟩ := looksAt_iff.1 h
  refine ⟨dir', hdir', ?_⟩
  have hways : waysTo "a".toList = [[⟨['a']⟩], [⟨"a.jinja".toList⟩], [⟨"a.j2".toList⟩],
      [⟨['a']⟩, ⟨"a.jinja".toList⟩], [⟨['a']⟩, ⟨"a.j2".toList⟩]] := by decide +kernel
  -- with an extension, the last component is another one
  have hother (before : List FilePath) (file : FilePath) (hfile : file.leading = [])
      (hlast : file.components.getLast? ≠ some (.normal ['a'])) (hnil : file.components ≠ []) :
      ¬((before ++ [file]).foldl join dir').components = dir.components ++ [.normal ['a']] := by
    intro hsame
    rw [List.foldl_concat, components_join_of_leading _ hfile] at hsame
    have hlasts := congrArg List.getLast? hsame
    rw [List.getLast?_append_of_ne_nil _ hnil, List.getLast?_concat] at hlasts
    exact hlast hlasts
  rw [same_iff, components_join_of_leading dir rfl] at hsame
  rw [same_iff]
  rw [hways] at hway
  simp only [List.mem_cons, List.not_mem_nil, or_false] at hway
  obtain rfl | rfl | rfl | rfl | rfl := hway
  · rw [List.foldl_cons, List.foldl_nil, components_join_of_leading dir' rfl] at hsame
    exact (List.append_cancel_right hsame).symm
  · exact absurd hsame (hother [] _ rfl (by decide) (by decide))
  · exact absurd hsame (hother [] _ rfl (by decide) (by decide))
  · exact absurd hsame (hother [_] _ rfl (by decide) (by decide))
  · exact absurd hsame (hother [_] _ rfl (by decide) (by decide))

end Engine

end Template

end ServiceScaffold
