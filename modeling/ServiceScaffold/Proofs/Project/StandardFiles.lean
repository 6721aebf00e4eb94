import Mathlib.Data.List.Forall2
import ServiceScaffold.Proofs.Naming
import ServiceScaffold.Proofs.Project.Tasks
import ServiceScaffold.Proofs.Store.Places
import ServiceScaffold.Proofs.Template.Evaluation
import ServiceScaffold.Proofs.Text.Occurrence

/-!
# The files of a standard project

Where the standard artifacts of a service go: five files of fixed names, and one for every resource
that is named after it.

* `Artifact.standardFiles` : the files, below the output directory;
* `RendersPaths` : what a renderer has to make of the paths of the standard artifacts, which
  `rendersPaths_standard` shows of the one that evaluates templates;
* `forall₂_path_tasks` : the path of every task is that of its file;
* `apart_trails` : **if the resources differ in kebab case, no two files stand at one place, and
  none is in the way to another.**
-/

namespace ServiceScaffold.Project

open Template (Engine isValidName)

/-! ### Files -/

namespace Artifact

/-- The files of a standard project that it has whatever its resources are. -/
def fixedFiles : List String :=
  ["package.json", "tsconfig.json", "README.md", "src/server.ts", "src/types.ts"]

/-- The file of a resource. -/
def resourceFile (name : String) : String := "src/resources/" ++ Naming.kebab name ++ ".ts"

/-- The files of a standard project. -/
def standardFiles (service : Service) : List String :=
  fixedFiles ++ service.resources.map fun x => resourceFile x.name

end Artifact

open Artifact

/-- The paths of the files of a standard project. -/
def Request.standardPaths (r : Request) (service : Service) : List FilePath :=
  (standardFiles service).map fun file => r.output.join (.ofString file)

theorem length_standardPaths (r : Request) (service : Service) :
    (r.standardPaths service).length = 5 + service.resources.length := by
  simp [Request.standardPaths, standardFiles, fixedFiles]
  omega

/-- The names on the way to a file. -/
def namesOf (file : String) : Trail := (FilePath.ofString file).components.filterMap Component.name?

/-- A fixed file has a name that is valid and not empty, with no blanks around it, and its path is a
template without marks. -/
theorem fixedFiles_spec : ∀ file ∈ fixedFiles, isValidName file = true ∧ namesOf file ≠ [] ∧
    Text.trim file.toList = file.toList ∧
    Template.isPlain file (Template.Script.parse file) = true := by
  decide +kernel

theorem toList_resourceFile (name : String) :
    (resourceFile name).toList =
      "src".toList ++ '/' :: ("resources".toList ++ '/' ::
        ((Naming.kebab name).toList ++ ".ts".toList)) := by
  have hfront : "src/resources/".toList = "src".toList ++ '/' :: ("resources".toList ++ ['/']) := by
    decide
  calc (resourceFile name).toList
    _ = ("src/resources/" ++ Naming.kebab name).toList ++ ".ts".toList := String.toList_append
    _ = "src/resources/".toList ++ (Naming.kebab name).toList ++ ".ts".toList :=
      congrArg (· ++ ".ts".toList) String.toList_append
    _ = "src".toList ++ '/' :: ("resources".toList ++ ['/']) ++ (Naming.kebab name).toList ++
        ".ts".toList := congrArg (· ++ (Naming.kebab name).toList ++ ".ts".toList) hfront
    _ = _ := by simp only [List.append_assoc, List.cons_append, List.nil_append]

theorem ofPiece?_typescript (cs : List Char) :
    Component.ofPiece? (cs ++ ".ts".toList) = some (.normal (cs ++ ".ts".toList)) := by
  have hne : ∀ piece : List Char, piece.getLast? ≠ some 's' → cs ++ ".ts".toList ≠ piece := by
    rintro piece hpiece rfl
    simp at hpiece
  rw [Component.ofPiece?, if_neg, if_neg (hne _ (by simp))]
  exact not_or.2 ⟨hne _ (by simp), hne _ (by simp)⟩

theorem components_resourceFile {name : String} (h : '/' ∉ (Naming.kebab name).toList) :
    (FilePath.ofString (resourceFile name)).components = [.normal "src".toList,
      .normal "resources".toList, .normal ((Naming.kebab name).toList ++ ".ts".toList)] := by
  have hlast : FilePath.innerOf ((Naming.kebab name).toList ++ ".ts".toList) =
      [.normal ((Naming.kebab name).toList ++ ".ts".toList)] := by
    have hno : ∀ c ∈ (Naming.kebab name).toList ++ ".ts".toList, FilePath.isSlash c = false := by
      intro c hc
      have hslash : '/' ∉ (Naming.kebab name).toList ++ ".ts".toList := by simpa using h
      exact beq_eq_false_iff_ne.2 fun heq => hslash (heq ▸ hc)
    rw [FilePath.innerOf, Text.splitOn_eq_self hno, List.filterMap_cons, ofPiece?_typescript]
    rfl
  rw [FilePath.components_eq, FilePath.ofString, toList_resourceFile, FilePath.innerOf_append_slash,
    FilePath.innerOf_append_slash, hlast]
  rfl

theorem namesOf_resourceFile {name : String} (h : '/' ∉ (Naming.kebab name).toList) :
    namesOf (resourceFile name) =
      ["src".toList, "resources".toList, (Naming.kebab name).toList ++ ".ts".toList] := by
  rw [namesOf, components_resourceFile h]
  rfl

/-- The names of all files stay inside the output directory. -/
theorem isValidName_standardFiles {service : Service}
    (h : ∀ x ∈ service.resources, '/' ∉ (Naming.kebab x.name).toList) :
    ∀ file ∈ standardFiles service, isValidName file = true := by
  intro file hfile
  obtain hfixed | hresource := List.mem_append.1 hfile
  · exact (fixedFiles_spec file hfixed).1
  · obtain ⟨x, hx, rfl⟩ := List.mem_map.1 hresource
    have hne : (resourceFile x.name).isEmpty = false := by
      rw [Bool.eq_false_iff, ne_eq, String.isEmpty_iff, ← String.toList_inj, toList_resourceFile]
      simp
    rw [isValidName, hne, components_resourceFile (h x hx)]
    rfl

/-! ### Places -/

/-- If the resources differ in kebab case, no two files stand at one place, and none is in the way
to another. -/
theorem apart_namesOf {service : Service}
    (h : ∀ x ∈ service.resources, '/' ∉ (Naming.kebab x.name).toList)
    (hdiffer : (service.resources.map fun x => Naming.kebab x.name).Nodup) :
    ((standardFiles service).map namesOf).Pairwise Trail.Apart := by
  have hresources : (service.resources.map fun x => resourceFile x.name).map namesOf =
      (service.resources.map fun x => Naming.kebab x.name).map fun kebab =>
        ["src".toList, "resources".toList, kebab.toList ++ ".ts".toList] := by
    rw [List.map_map, List.map_map]
    refine List.map_congr_left fun x hx => ?_
    simp only [Function.comp_apply]
    exact namesOf_resourceFile (h x hx)
  rw [standardFiles, List.map_append, hresources, List.pairwise_append]
  -- the fixed files, those of the resources, and one of each
  refine ⟨by decide +kernel, ?_, ?_⟩
  · rw [List.pairwise_map]
    have hnot : ∀ a b : String, a ≠ b →
        ¬["src".toList, "resources".toList, a.toList ++ ".ts".toList] <+:
          ["src".toList, "resources".toList, b.toList ++ ".ts".toList] := by
      intro a b hne hprefix
      have heq := hprefix.eq_of_length rfl
      simp only [List.cons.injEq, List.append_cancel_right_eq, true_and, and_true] at heq
      exact hne (String.toList_inj.1 heq)
    exact hdiffer.imp fun {a b} hne => ⟨hnot a b hne, hnot b a hne.symm⟩
  · intro a ha b hb
    obtain ⟨kebab, -, rfl⟩ := List.mem_map.1 hb
    -- a fixed file is less deep, and none is a directory above the files of resources
    have hshort : ∀ a ∈ fixedFiles.map namesOf,
        a.length ≤ 2 ∧ ¬a <+: ["src".toList, "resources".toList] := by decide +kernel
    obtain ⟨hlength, hfixed⟩ := hshort a ha
    refine ⟨fun hprefix => hfixed ?_, fun hprefix => ?_⟩
    · exact List.prefix_of_prefix_length_le hprefix (List.prefix_append ["src".toList,
        "resources".toList] [kebab.toList ++ ".ts".toList]) hlength
    · have hlong := hprefix.length_le
      simp only [List.length_cons, List.length_nil] at hlong
      omega

/-- The place of a file. -/
theorem trailOf_join (d : Disk) (directory : FilePath) {file : String}
    (hvalid : isValidName file = true) :
    d.trailOf (directory.join (.ofString file)) = d.trailOf directory ++ namesOf file := by
  obtain ⟨more, hmore, hinner, hnames⟩ :=
    directory.components_join_inner (inner_of_isValidName hvalid)
  rw [Disk.trailOf_of_components hmore hinner, hnames, namesOf]

theorem namesOf_ne_nil {service : Service}
    (h : ∀ x ∈ service.resources, '/' ∉ (Naming.kebab x.name).toList) :
    ∀ file ∈ standardFiles service, namesOf file ≠ [] := by
  intro file hfile
  obtain hfixed | hresource := List.mem_append.1 hfile
  · exact (fixedFiles_spec file hfixed).2.1
  · obtain ⟨x, hx, rfl⟩ := List.mem_map.1 hresource
    rw [namesOf_resourceFile (h x hx)]
    exact List.cons_ne_nil _ _

/-- No two files stand at one place, and none is in the way to another. -/
theorem apart_trails (d : Disk) (r : Request) {service : Service}
    (h : ∀ x ∈ service.resources, '/' ∉ (Naming.kebab x.name).toList)
    (hdiffer : (service.resources.map fun x => Naming.kebab x.name).Nodup) :
    ((r.standardPaths service).map d.trailOf).Pairwise Trail.Apart := by
  have htrails : (r.standardPaths service).map d.trailOf =
      ((standardFiles service).map namesOf).map (d.trailOf r.output ++ ·) := by
    rw [Request.standardPaths, List.map_map, List.map_map]
    refine List.map_congr_left fun file hfile => ?_
    exact trailOf_join d r.output (isValidName_standardFiles h file hfile)
  -- the output directory is in front of all trails
  rw [htrails, List.pairwise_map]
  refine (apart_namesOf h hdiffer).imp fun {a b} hab => ?_
  exact ⟨fun hprefix => hab.1 ((List.prefix_append_right_inj _).1 hprefix),
    fun hprefix => hab.2 ((List.prefix_append_right_inj _).1 hprefix)⟩

/-! ### Tasks -/

variable {e : Engine} {r : Request} {t : Task}

/-- The path of a task whose file has this text. -/
theorem Task.path_eq {directory : FilePath} {file : String}
    (hrender : ∀ name, e.renderer name t.output t.data = .text file)
    (htrim : Text.trim file.toList = file.toList) (hvalid : isValidName file = true) :
    t.path e directory = .ok (directory.join (.ofString file)) := by
  have hsource : ∀ name, e.renderSource name t.output t.data = .ok file := fun name => by
    simp only [Engine.renderSource, Template.Loaded.render, hrender]
  have hbelow : String.ofList (Text.trim file.toList) = file := by rw [htrim, String.ofList_toList]
  unfold Task.path
  rw [hsource]
  dsimp only [Chain.ofResult, Except.mapError, bind, Except.bind]
  rw [hbelow, if_pos hvalid]
  rfl

theorem trim_standardFiles {service : Service} {file : String} (h : file ∈ standardFiles service) :
    Text.trim file.toList = file.toList := by
  obtain hfixed | hresource := List.mem_append.1 h
  · exact (fixedFiles_spec file hfixed).2.2.1
  · obtain ⟨x, -, rfl⟩ := List.mem_map.1 hresource
    have hfirst : (resourceFile x.name).toList.head? = some 's' := by simp [toList_resourceFile]
    have hlast : (resourceFile x.name).toList.getLast? = some 's' := by
      simp [toList_resourceFile, List.getLast?_append, List.getLast?_cons]
    exact Text.trim_eq_self hfirst hlast rfl rfl

/-- The template of the path of a resource's file. -/
def resourceOutput : String := "src/resources/\x7b\x7b resource.name | kebab_case \x7d\x7d.ts"

theorem render_fixedFile {file : String} (h : file ∈ fixedFiles) (data : Json) :
    Template.render file data = .ok file :=
  Template.render_plain (fixedFiles_spec file h).2.2.2 data

theorem render_resourceOutput (about : Json) (service : Service) (x : Resource) :
    Template.render resourceOutput (taskData about service (some x)) =
      .ok (resourceFile x.name) := by
  have hparse : Template.isFiltered "src/resources/" "resource" "name" "kebab_case" ".ts"
      (Template.Script.parse resourceOutput) = true := by decide +kernel
  have hresource : Keyed.lookup "resource" (Template.rootNames (taskData about service (some x))) =
      some (.ofJson x.encode) := by
    have hhelper : Keyed.has "resource" Template.helperNames = false := by decide +kernel
    rw [taskData, Template.lookup_rootNames hhelper]
    simp [Keyed.sortedFields, Keyed.lookup_insertSorted]
  have hname : (Template.Value.ofJson x.encode).attribute? "name" = some (.text x.name) := rfl
  have hkebab : Template.applyFilter "kebab_case" (.text x.name) [] =
      .ok (.text (Naming.kebab x.name)) := rfl
  have hdisplay : (Template.Value.text (Naming.kebab x.name)).display = Naming.kebab x.name := by
    rw [Template.Value.display]
  have hrender := Template.render_filtered hparse hresource (by decide) hname hkebab
  rwa [hdisplay] at hrender

/-- What a renderer makes of the paths of the standard artifacts: a text without marks is the path
itself, and a resource gives its name in kebab case to the path of its file. -/
structure RendersPaths (renderer : Template.Renderer) : Prop where
  fixed (name : String) {file : String} (data : Json) : file ∈ fixedFiles →
    renderer name file data = .text file
  resource (name : String) (about : Json) (service : Service) (x : Resource) :
    renderer name resourceOutput (taskData about service (some x)) = .text (resourceFile x.name)

/-- The renderer that evaluates templates makes these paths. -/
theorem rendersPaths_standard : RendersPaths .standard where
  fixed name _ data h := Template.Renderer.standard_eq_text name (render_fixedFile h data)
  resource name about service x :=
    Template.Renderer.standard_eq_text name (render_resourceOutput about service x)

/-- The tasks of the standard artifacts. -/
theorem tasks_standard {settings : Settings} (h : settings.effectiveArtifacts = Artifact.standard)
    (now : Instant) (r : Request) (service : Service) :
    ∃ about, r.tasks now settings service =
      fixedFiles.map (fun file => ⟨file, file, taskData about service none⟩) ++
        service.resources.map fun x =>
          ⟨"src/resource.ts", resourceOutput, taskData about service (some x)⟩ := by
  refine ⟨metadata now (r.targetVersionIn settings) r.schema, ?_⟩
  rw [Request.tasks, h]
  simp [Artifact.standard, Artifact.tasks, fixedFiles, resourceOutput]

/-- The path of every task is that of its file. -/
theorem forall₂_path_tasks {settings : Settings}
    (h : settings.effectiveArtifacts = Artifact.standard) (now : Instant) {service : Service}
    (hslash : ∀ x ∈ service.resources, '/' ∉ (Naming.kebab x.name).toList)
    (he : RendersPaths e.renderer) :
    List.Forall₂ (fun t file => t.path e r.output = .ok (r.output.join (.ofString file)))
      (r.tasks now settings service) (standardFiles service) := by
  obtain ⟨about, htasks⟩ := tasks_standard h now r service
  rw [htasks, standardFiles]
  have hvalid := isValidName_standardFiles hslash
  refine List.rel_append ?_ ?_
  · rw [List.forall₂_map_left_iff, List.forall₂_same]
    intro file hfile
    have hmem : file ∈ standardFiles service := List.mem_append_left _ hfile
    exact Task.path_eq (fun name => he.fixed name _ hfile) (trim_standardFiles hmem)
      (hvalid file hmem)
  · rw [List.forall₂_map_left_iff, List.forall₂_map_right_iff, List.forall₂_same]
    intro x hx
    have hmem : resourceFile x.name ∈ standardFiles service :=
      List.mem_append_right _ (List.mem_map.2 ⟨x, hx, rfl⟩)
    exact Task.path_eq (fun name => he.resource name about service x) (trim_standardFiles hmem)
      (hvalid _ hmem)

end ServiceScaffold.Project
