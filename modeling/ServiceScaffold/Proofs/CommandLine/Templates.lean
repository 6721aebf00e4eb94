import ServiceScaffold.CommandLine.Run
import ServiceScaffold.Proofs.Template.Listing
import ServiceScaffold.Proofs.Template.Preloading

/-!
# What the list of templates ends with

The command that lists templates shows where each of them stands, preloads all of them, and ends with
a summary.  How many templates were loaded is told from the answer of the preload; those that were
not are found by their absence from the cache.

* `Summarises`, `summarises_of_preloaded` : **the summary tells success if and only if all
  listed templates are in the cache**, and marks those that are not otherwise;
* `runTemplates_of_places` : the command comes to its summary if all listed templates are found;
* `templates_counted` : what a preload counts, and the summary made of it.
-/

namespace ServiceScaffold.CommandLine

open Template

/-! ### The summary -/

/-- The line that tells success. -/
def successLine (loaded : Nat) : String := "✅ Loaded " ++ countText loaded ++ " template(s)"

/-- The line that tells that templates are missing. -/
def warningLine (loaded total : Nat) : String :=
  "⚠️  Loaded " ++ countText loaded ++ " of " ++ countText total ++ " template(s)"

theorem head?_append {line : String} {c : Char} (h : line.toList.head? = some c) (rest : String) :
    (line ++ rest).toList.head? = some c := by
  rw [String.toList_append, List.head?_append, h, Option.some_or]

theorem successLine_ne_warningLine (loaded loaded' total : Nat) :
    successLine loaded ≠ warningLine loaded' total := by
  intro h
  have hsuccess : (successLine loaded).toList.head? = some '✅' :=
    head?_append (head?_append (by decide) _) _
  have hwarning : (warningLine loaded' total).toList.head? = some '⚠' :=
    head?_append (head?_append (head?_append (head?_append (by decide) _) _) _) _
  rw [h, hwarning] at hsuccess
  exact absurd (Option.some.inj hsuccess) (by decide)

theorem loadedLines_eq (names : List String) (loaded : Nat) (cache : Cache) :
    loadedLines names loaded cache =
      if loaded = names.length then [successLine loaded]
      else warningLine loaded names.length ::
        (names.filter fun name => !cache.contains name).map ("   ✗ " ++ ·) := rfl

/-- The summary tells success if and only if all listed templates are in the cache; otherwise it
marks those that are not, as many as the count falls short of all. -/
structure Summarises (names : List String) (loaded : Nat) (cache : Cache) : Prop where
  success : loadedLines names loaded cache = [successLine loaded] ↔
    ∀ name ∈ names, cache.contains name = true
  marks : ¬(∀ name ∈ names, cache.contains name = true) → ∃ marked : List String,
    loadedLines names loaded cache =
        warningLine loaded names.length :: marked.map ("   ✗ " ++ ·) ∧
      marked.length = names.length - loaded ∧ loaded < names.length ∧
      ∀ name, name ∈ marked ↔ name ∈ names ∧ cache.contains name = false

/-- **The summary of a preload** tells what is in the cache. -/
theorem summarises_of_preloaded {names : List String} {before after : Cache} {loaded : Nat}
    (h : Preloaded names before after loaded) : Summarises names loaded after := by
  have hsplit := List.length_eq_countP_add_countP (p := after.contains) (l := names)
  have hmarked : (names.filter fun name => !after.contains name).length =
      names.countP fun name => decide ¬after.contains name = true := by
    rw [← List.countP_eq_length_filter]
    simp
  have hall : loaded = names.length ↔ ∀ name ∈ names, after.contains name = true := by
    rw [h.count_eq, List.countP_eq_length]
  have hcount := h.count_eq
  have hsuccess : loadedLines names loaded after = [successLine loaded] ↔
      ∀ name ∈ names, after.contains name = true := by
    rw [loadedLines_eq, ← hall]
    split_ifs with heq
    · exact iff_of_true rfl heq
    · exact iff_of_false
        (fun hlines => successLine_ne_warningLine _ _ _ (List.cons.inj hlines).1.symm) heq
  refine ⟨hsuccess, fun hmissing =>
    ⟨names.filter fun name => !after.contains name, ?_, ?_, ?_, fun name => ?_⟩⟩
  · rw [loadedLines_eq, if_neg (mt hall.1 hmissing)]
  · omega
  · have hne := mt hall.1 hmissing
    omega
  · simp

/-! ### The command -/

/-- The command comes to its summary if all listed templates are found. -/
theorem runTemplates_of_places {directory : FilePath} {framework : Option String} {d : Disk}
    {names places : List String}
    (hnames : (Engine.mk directory framework .standard).namesIn d "" = .ok names)
    (hplaces : placeLines ⟨directory, framework, .standard⟩ d names = (places, none)) :
    ∃ loaded cache, Preloaded names .empty cache loaded ∧
      runTemplates directory framework d =
        { disk := d, output := places ++ loadedLines names loaded cache } := by
  have hcounts : (Engine.mk directory framework .standard).CountsPreload ""
      (Workspace.mk d .empty) names := Engine.countsPreload hnames
  obtain ⟨loaded, -, hloaded, hpreloaded, -⟩ := hcounts.inOneGo
  have hstore := Engine.store_preload ⟨directory, framework, .standard⟩ "" ⟨d, .empty⟩
  refine ⟨loaded, _, hpreloaded, ?_⟩
  rcases hon : ((Engine.mk directory framework .standard).preload "").on ⟨d, .empty⟩ with ⟨r, w⟩
  rw [hon] at hloaded hstore
  subst hloaded
  simp only at hstore
  rw [runTemplates]
  simp only [hnames, hplaces, hon, hstore]

/-- The command fails if templates cannot be listed or one of them is not found. -/
theorem exists_places_of_runTemplates {directory : FilePath} {framework : Option String} {d : Disk}
    (h : (runTemplates directory framework d).failure = none) : ∃ names places,
      (Engine.mk directory framework .standard).namesIn d "" = .ok names ∧
        placeLines ⟨directory, framework, .standard⟩ d names = (places, none) := by
  rw [runTemplates] at h
  rcases hnames : (Engine.mk directory framework .standard).namesIn d "" with f | names
  · simp [hnames] at h
  rcases hplaces : placeLines ⟨directory, framework, .standard⟩ d names with ⟨places, _ | f⟩
  · exact ⟨names, places, rfl, hplaces⟩
  · simp [hnames, hplaces] at h

/-- **Preloads are counted, and the summary tells the count.**  For every engine, whatever its cache
and its files are, a preload of listed templates answers with the number of them that are in the
cache then (`Template.Engine.CountsPreload`).  The command that comes to its end has preloaded the
templates that it lists, and its last lines are the summary of that. -/
theorem templates_counted :
    (∀ (σ : Type) [FileStore σ] (e : Engine) (dir : String) (w : Workspace σ)
      (names : List String), ((e.list dir).on w).1 = .ok names → e.CountsPreload dir w names) ∧
    (∀ (names : List String) (before after : Cache) (loaded : Nat),
      Preloaded names before after loaded → Summarises names loaded after) ∧
    ∀ (directory : FilePath) (framework : Option String) (d : Disk),
      (runTemplates directory framework d).failure = none → ∃ names places loaded cache,
        (((Engine.mk directory framework .standard).list "").on (Workspace.mk d .empty)).1 =
          .ok names ∧
        Preloaded names .empty cache loaded ∧ Summarises names loaded cache ∧
        runTemplates directory framework d =
          { disk := d, output := places ++ loadedLines names loaded cache } := by
  refine ⟨fun σ _ e dir w names => Engine.countsPreload,
    fun _ _ _ _ => summarises_of_preloaded, fun directory framework d h => ?_⟩
  obtain ⟨names, places, hnames, hplaces⟩ := exists_places_of_runTemplates h
  obtain ⟨loaded, cache, hpreloaded, hrun⟩ := runTemplates_of_places hnames hplaces
  exact ⟨names, places, loaded, cache, hnames, hpreloaded, summarises_of_preloaded hpreloaded, hrun⟩

/-- A disk with one template, which is no text. -/
def garbledDisk : Disk :=
  ⟨[(["t".toList], .directory true), (["t".toList, "b.j2".toList], .file ⟨#[255]⟩)], []⟩

/-- The same disk, with an earlier text in the cache. -/
def garbledStart : Workspace Disk := ⟨garbledDisk, ⟨[("b", ⟨.ofString "t/b.j2", "old"⟩)]⟩⟩

/-- What is in the cache is counted, though it cannot be read; what is not there is marked. -/
theorem templates_counted_garbled :
    (∃ k w', ((Engine.below "t").preload "").on garbledStart = (.ok k, w') ∧
      k = ["b"].countP w'.cache.contains ∧ w'.cache.get? "b" = some ⟨.ofString "t/b.j2", "old"⟩) ∧
    (∃ k, (Call.run (Engine.below "t") ((Request.preload "").call, garbledStart)
      (0 :: List.replicate 9 0)).1.answer? (Engine.below "t") = some (.ok (.count k))) ∧
    (∃ places loaded cache, loaded = ["b"].countP cache.contains ∧
      (runTemplates (.ofString "t") none garbledDisk).output =
        places ++ loadedLines ["b"] loaded cache) ∧
    (runTemplates (.ofString "t") none garbledDisk).output =
      ["   b → t/b.j2", "⚠️  Loaded 0 of 1 template(s)", "   ✗ b"] := by
  have hlist (c : Cache) :
      (((Engine.below "t").list "").on (Workspace.mk garbledDisk c)).1 = .ok ["b"] := by
    have hfiles : FileStore.files garbledDisk ((Engine.below "t").root "") =
        .ok [.ofString "t/b.j2"] := by decide +kernel
    have hnames : Engine.sortedNames ([.ofString "t/b.j2"].filterMap
        (nameOf? (Engine.below "t").base)) = ["b"] := by decide +kernel
    rw [Engine.on_list, Engine.namesIn_of_files (by decide) hfiles, hnames]
  obtain ⟨hcounts, -, hrun⟩ := templates_counted
  have hpreload := hcounts Disk (Engine.below "t") "" garbledStart ["b"] (hlist _)
  refine ⟨?_, ?_, ?_, by decide +kernel⟩
  · obtain ⟨k, -, hk, hpreloaded, -⟩ := hpreload.inOneGo
    exact ⟨k, _, Prod.ext hk rfl, hpreloaded.count_eq, hpreloaded.kept "b" _ rfl⟩
  · obtain ⟨r, hr⟩ := hpreload.ends 0 (List.replicate 9 0) fun i name hi => by
      obtain ⟨rfl, rfl⟩ : i = 0 ∧ name = "b" := by
        cases i <;> simp_all
      decide +kernel
    obtain ⟨-, ⟨k, rfl, -⟩, -⟩ := hpreload.counted _ _ r (Call.leads_run _ _ _) hr
    exact ⟨k, hr⟩
  · obtain ⟨names, places, loaded, cache, hnames, hpreloaded, -, hout⟩ :=
      hrun (.ofString "t") none garbledDisk (by decide +kernel)
    obtain rfl : names = ["b"] := Except.ok.inj (hnames.symm.trans (hlist .empty))
    exact ⟨places, loaded, cache, hpreloaded.count_eq, by rw [hout]⟩

end ServiceScaffold.CommandLine
