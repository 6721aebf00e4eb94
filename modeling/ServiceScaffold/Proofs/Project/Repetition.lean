import ServiceScaffold.Proofs.Project.Prediction
import ServiceScaffold.Proofs.Store.Below

/-!
# Generating twice

A run without force that follows another one finds all its files, so that it leaves everything as it
is, provided that it still reads the schema and the settings as the first run did.

* `Request.sources` : what a run reads before its first task;
* `effective_of_load`, `extraction_congr` : the settings and the schema depend on the sources only;
* `pathFor?_after` : **after a run without settings, a settings file is found if and only if the
  output path passes its place**, and it is a directory;
* `generate_repeats` : the second run skips every file of the first, unless the first has made such
  a directory or has written over its own sources.
-/

namespace ServiceScaffold

open Template (Engine Workspace isValidName)

namespace Disk

variable {d d' : Disk} {t : Trail} {p : FilePath} {cs more : List Component} {b : ByteArray}

/-- Where a path goes on from a directory, it may go on by any name. -/
theorem exists_follow_append_name (hmore : more ≠ []) {x : DiskPlace}
    (h : d.follow t (cs ++ more) = .ok x) (name : List Char) :
    ∃ y, d.follow t (cs ++ [.normal name]) = .ok y := by
  induction cs generalizing t with
  | nil => exact d.exists_follow_name t name
  | cons c cs ih =>
    cases c with
    | root => exact ih h
    | current => exact ih h
    | parent => exact ih h
    | normal first =>
      rcases hs : d.standing? (t ++ [first]) with _ | ⟨bytes | r⟩
      · simp [follow, hs, hmore] at h
      · simp [follow, hs, hmore] at h
      · obtain ⟨y, hy⟩ := ih (t := t ++ [first]) (by simpa [follow, hs] using h)
        exact ⟨y, by simpa [follow, hs] using hy⟩

theorem Keeps.readBytes (h : d.Keeps d') (hread : d.readBytes p = .ok b) :
    d'.readBytes p = .ok b := by
  obtain ⟨⟨x, hx⟩, hstand, hplain⟩ := readBytes_eq_ok_iff.1 hread
  rw [readBytes_eq_ok_iff, h.kinds.trailOf]
  exact ⟨h.kinds.place_ok hx, h.standing hstand, hplain⟩

theorem readBytes_of_hasDirectory {x : DiskPlace} (hx : d.place p = .ok x)
    (hdir : d.HasDirectory (d.trailOf p)) : d.readBytes p = .error .isDirectory := by
  obtain rfl := trail_of_place_ok hx
  obtain ⟨r, hr⟩ := hdir
  simp [readBytes, stat, hx, hr]

theorem exists_readBytes_of_readText {text : String} (h : d.readText p = .ok text) :
    ∃ b, d.readBytes p = .ok b := by
  rw [readText] at h
  rcases hread : d.readBytes p with x | b
  · rw [hread] at h
    cases h
  · exact ⟨b, rfl⟩

end Disk

namespace Project

variable {e : Engine} {r : Request} {d d' : Disk} {dir file schema : FilePath} {b : ByteArray}
  {asked : Option FilePath} {reader : Toml.Reader} {backend : Backend}

/-! ### Sources -/

/-- What a run reads before its first task: its schema, and its settings file if there is one. -/
def Request.sources (r : Request) (d : Disk) : List FilePath :=
  r.schema :: (Settings.pathFor? d r.settingsFile r.schema).toList

theorem extraction_congr (h : d'.readBytes file = d.readBytes file) :
    SchemaFile.extraction d' file = SchemaFile.extraction d file := by
  rw [SchemaFile.extraction, SchemaFile.read, Disk.readText, h, SchemaFile.extraction,
    SchemaFile.read, Disk.readText]

theorem exists_readBytes_of_extraction {found : Extraction}
    (h : SchemaFile.extraction d file = .ok found) : ∃ b, d.readBytes file = .ok b := by
  rcases hread : d.readText file with p | text
  · rw [SchemaFile.extraction, SchemaFile.read, hread] at h
    cases h
  · exact Disk.exists_readBytes_of_readText hread

/-- Settings that were loaded stand in a file that can be read. -/
theorem exists_readBytes_of_load {settings : Settings}
    (h : Settings.load d file reader = .ok (some settings)) : ∃ b, d.readBytes file = .ok b := by
  rw [Settings.load] at h
  split_ifs at h
  · rcases hread : d.readText file with p | text
    · rw [hread] at h
      cases h
    · exact Disk.exists_readBytes_of_readText hread
  · simp at h

/-- A settings file that is there reads the same wherever it has the same bytes. -/
theorem load_congr (h : d.readBytes file = .ok b) (h' : d'.readBytes file = .ok b) :
    Settings.load d' file reader = Settings.load d file reader := by
  rw [Settings.load, Settings.load, Disk.pathExists_of_readBytes h,
    Disk.pathExists_of_readBytes h', Disk.readText, h', Disk.readText, h]

/-- No settings are read from a directory. -/
theorem effective_of_directory (hfile : Settings.pathFor? d asked schema = some file)
    (hex : d.pathExists file = true) (hread : d.readBytes file = .error .isDirectory) :
    ∃ c, Settings.effective d asked schema reader = .error c := by
  have hload : ∃ c, Settings.load d file reader = .error c := by
    rw [Settings.load, if_pos hex, Disk.readText, hread]
    exact ⟨_, rfl⟩
  obtain ⟨c, hc⟩ := hload
  refine ⟨c, ?_⟩
  rw [Settings.effective, hfile]
  simp only [hc]

/-- A settings file that was found is found again. -/
theorem pathFor?_of_kinds (h : d.KeepsKinds d')
    (hfile : Settings.pathFor? d asked schema = some file) :
    Settings.pathFor? d' asked schema = some file := by
  rcases asked with _ | path
  · have hbeside : Settings.beside? d schema = some file := hfile
    show Settings.beside? d' schema = some file
    rw [Settings.beside?, Option.filter_eq_some_iff] at hbeside ⊢
    exact ⟨hbeside.1, h.pathExists hbeside.2⟩
  · exact hfile

/-- The settings come from the settings file that was found. -/
theorem load_of_effective {settings : Settings}
    (h : Settings.effective d asked schema reader = .ok settings)
    (hfile : Settings.pathFor? d asked schema = some file) :
    Settings.load d file reader = .ok (some settings) := by
  rw [Settings.effective, hfile] at h
  dsimp only at h
  rcases hload : Settings.load d file reader with c | _ | s
  · simp [hload] at h
  · simp only [hload] at h
    -- a file that was not asked for was found
    rcases asked with _ | path
    · have hbeside : Settings.beside? d schema = some file := hfile
      rw [Settings.beside?, Option.filter_eq_some_iff] at hbeside
      rw [Settings.load, if_pos hbeside.2] at hload
      split at hload
      · cases hload
      · split at hload <;> cases hload
    · simp at h
  · simpa [hload] using h

/-- The settings are the same wherever the same settings file has the same bytes. -/
theorem effective_of_load {settings : Settings}
    (hfile : Settings.pathFor? d asked schema = some file)
    (h : Settings.load d file reader = .ok (some settings)) :
    Settings.effective d asked schema reader = .ok settings := by
  rw [Settings.effective, hfile]
  simp only [h]

/-- Every source of a run that succeeds can be read. -/
theorem exists_readBytes_of_sources {settings : Settings} {found : Extraction}
    (hsettings : Settings.effective d r.settingsFile r.schema backend.toml = .ok settings)
    (hfound : SchemaFile.extraction d r.schema = .ok found) :
    ∀ file ∈ r.sources d, ∃ b, d.readBytes file = .ok b := by
  rw [Request.sources]
  refine List.forall_mem_cons.2 ⟨exists_readBytes_of_extraction hfound, fun file hfile => ?_⟩
  rw [Option.mem_toList] at hfile
  exact exists_readBytes_of_load (load_of_effective hsettings hfile)

/-! ### The place of the settings file -/

/-- The output path passes the place where a settings file is looked for and is not there. -/
def Request.makesSettings (r : Request) (d : Disk) : Bool :=
  (Settings.pathFor? d r.settingsFile r.schema).isNone &&
    r.schema.parent?.any fun dir => d.passes r.output (d.trailOf (dir.join Settings.fileName))

/-- The name of a settings file. -/
def settingsName : List Char := Settings.fileName.chars

theorem settingsName_eq : settingsName = "schemaforge.tom".toList ++ ['l'] := by decide

theorem components_join_fileName (dir : FilePath) :
    (dir.join Settings.fileName).components = dir.components ++ [.normal settingsName] :=
  FilePath.components_join_name dir (by decide)

theorem trailOf_join_fileName (d : Disk) (dir : FilePath) :
    d.trailOf (dir.join Settings.fileName) = d.trailOf dir ++ [settingsName] := by
  rw [Disk.trailOf, components_join_fileName, Disk.trailFrom_append]
  rfl

theorem wantsDirectory_join_fileName (dir : FilePath) :
    Disk.wantsDirectory (dir.join Settings.fileName) = false := by
  obtain ⟨front, hfront⟩ := dir.exists_join_eq Settings.fileName
  rw [hfront]
  exact Disk.wantsDirectory_append_name (by decide) front

/-- The place of the settings file can be reached from a schema that can be read. -/
theorem exists_place_beside (hread : d.readBytes schema = .ok b)
    (hdir : schema.parent? = some dir) : ∃ x, d.place (dir.join Settings.fileName) = .ok x := by
  obtain ⟨⟨x, hx⟩, -⟩ := Disk.readBytes_eq_ok_iff.1 hread
  have hfollow : ∃ y, d.follow d.home (dir.components ++ [.normal settingsName]) = .ok y := by
    rw [FilePath.components_parent? hdir]
    by_cases hnil : schema.components = []
    · rw [hnil]
      exact d.exists_follow_name d.home _
    · have hlast := List.dropLast_append_getLast hnil
      exact Disk.exists_follow_append_name (List.cons_ne_nil _ _)
        (hlast.symm ▸ (Disk.place_ok hx).2) _
  obtain ⟨y, hy⟩ := hfollow
  refine ⟨y, ?_⟩
  have hne : (dir.join Settings.fileName).chars ≠ [] :=
    FilePath.chars_ne_nil (by rw [components_join_fileName]; simp)
  rw [Disk.place, if_neg (by simpa using hne), components_join_fileName, hy]

/-- The settings file is found if something stands at its place. -/
theorem pathExists_beside (hread : d.readBytes schema = .ok b) (hdir : schema.parent? = some dir)
    (h : d.KeepsKinds d') : d'.pathExists (dir.join Settings.fileName) =
      (d'.standing? (d.trailOf (dir.join Settings.fileName))).isSome := by
  obtain ⟨x, hx⟩ := exists_place_beside hread hdir
  rw [Bool.eq_iff_iff, Disk.pathExists_iff, h.trailOf, wantsDirectory_join_fileName]
  rcases hs : d'.standing? (d.trailOf (dir.join Settings.fileName)) with _ | ⟨bytes | r⟩ <;>
    simp [Disk.HasDirectory, hs, h.place_ok hx]

theorem settingsName_notMem_namesOf {service : Service}
    (h : ∀ x ∈ service.resources, '/' ∉ (Naming.kebab x.name).toList) :
    ∀ file ∈ Artifact.standardFiles service, settingsName ∉ namesOf file := by
  intro file hfile
  obtain hfixed | hresource := List.mem_append.1 hfile
  · have hno : ∀ file ∈ Artifact.fixedFiles, settingsName ∉ namesOf file := by decide +kernel
    exact hno file hfixed
  · obtain ⟨x, hx, rfl⟩ := List.mem_map.1 hresource
    have hlast : settingsName ≠ (Naming.kebab x.name).toList ++ ".ts".toList := by
      intro heq
      have hends := congrArg List.getLast? heq
      rw [settingsName_eq] at hends
      simp at hends
    have hdirectories : settingsName ≠ "src".toList ∧ settingsName ≠ "resources".toList := by
      decide
    rw [namesOf_resourceFile (h x hx)]
    simp only [List.mem_cons, List.not_mem_nil, or_false, not_or]
    exact ⟨hdirectories.1, hdirectories.2, hlast⟩

/-- A file passes no place of a name that is not on the way to it, unless its directory does. -/
theorem passes_join (d : Disk) (directory : FilePath) {file : String}
    (hvalid : isValidName file = true) {t : Trail} {name : List Char}
    (hname : name ∉ namesOf file) :
    d.passes (directory.join (.ofString file)) (t ++ [name]) = d.passes directory (t ++ [name]) := by
  obtain ⟨more, hmore, hinner, hnames⟩ :=
    directory.components_join_inner (inner_of_isValidName hvalid)
  rw [Bool.eq_iff_iff, Disk.passes_iff, Disk.passes_iff, hmore]
  refine ⟨fun ⟨pre, hpre, htrail⟩ => ?_, fun ⟨pre, hpre, htrail⟩ =>
    ⟨pre, hpre.trans (List.prefix_append _ _), htrail⟩⟩
  obtain hpassed | ⟨inside, rfl⟩ :=
    List.prefix_or_prefix_of_prefix hpre (List.prefix_append directory.components more)
  · exact ⟨pre, hpassed, htrail⟩
  -- inside of the directory the last name would be one of the file
  have hinside : inside <+: more := (List.prefix_append_right_inj _).1 hpre
  have hall : inside.all Component.isInner = true := List.all_eq_true.2 fun c hc =>
    List.all_eq_true.1 hinner c (hinside.subset hc)
  rw [Disk.trailFrom_append, Disk.trailFrom_inner _ hall] at htrail
  refine ⟨directory.components, List.prefix_rfl, ?_⟩
  obtain hnil | ⟨front, last, hlast⟩ := (inside.filterMap Component.name?).eq_nil_or_concat'
  · rwa [hnil, List.append_nil] at htrail
  · rw [hlast, ← List.append_assoc] at htrail
    obtain ⟨-, rfl⟩ : _ ∧ last = name := by simpa using List.append_inj' htrail rfl
    refine absurd ?_ hname
    rw [namesOf, ← hnames]
    exact (hinside.filterMap _).subset (by simp [hlast])

/-- The files of a standard project pass the place of a settings file if the output path does. -/
theorem any_passes_standard (d : Disk) (r : Request) {service : Service}
    (hslash : ∀ x ∈ service.resources, '/' ∉ (Naming.kebab x.name).toList) (t : Trail) :
    (r.standardPaths service).any (fun p => d.passes p (t ++ [settingsName])) =
      d.passes r.output (t ++ [settingsName]) := by
  have hpasses : ∀ file ∈ Artifact.standardFiles service,
      d.passes (r.output.join (.ofString file)) (t ++ [settingsName]) =
        d.passes r.output (t ++ [settingsName]) := fun file hfile =>
    passes_join d r.output (isValidName_standardFiles hslash file hfile)
      (settingsName_notMem_namesOf hslash file hfile)
  have hmem : "package.json" ∈ Artifact.standardFiles service := List.mem_cons_self
  rw [Request.standardPaths, List.any_map, Bool.eq_iff_iff, List.any_eq_true]
  constructor
  · rintro ⟨file, hfile, hpassed⟩
    rwa [Function.comp_apply, hpasses file hfile] at hpassed
  · intro hpassed
    exact ⟨_, hmem, by rwa [Function.comp_apply, hpasses _ hmem]⟩

/-- The paths of a run without settings are those of a standard project. -/
theorem path_outcomes_standard {now : Instant} {service : Service} {w : Workspace Disk}
    (hslash : ∀ x ∈ service.resources, '/' ∉ (Naming.kebab x.name).toList)
    (he : RendersPaths e.renderer)
    (hok : (emit e r (r.tasks now {} service) w).failure = none) :
    (emit e r (r.tasks now {} service) w).outcomes.map Outcome.path = r.standardPaths service := by
  have hpaths : List.Forall₂ (· = ·) ((r.tasks now {} service).map (Task.path e r.output))
      ((r.standardPaths service).map .ok) := by
    rw [Request.standardPaths, List.map_map, List.forall₂_map_left_iff, List.forall₂_map_right_iff]
    exact forall₂_path_tasks rfl now hslash he
  rw [List.forall₂_eq_eq_eq, map_path_outcomes hok] at hpaths
  exact List.map_injective_iff.2 (fun _ _ => Except.ok.inj) hpaths

/-- A directory stands wherever the output path passes, once a file of the output is there. -/
theorem hasDirectory_of_passes (hd : d.IsTree) {file : String} (hvalid : isValidName file = true)
    (hfile : namesOf file ≠ []) (hex : d.pathExists (r.output.join (.ofString file)) = true)
    {t : Trail} (ht : d.passes r.output t = true) : d.HasDirectory t := by
  obtain ⟨more, hmore, -, hnames⟩ :=
    r.output.components_join_inner (inner_of_isValidName hvalid)
  have hne : more ≠ [] := by
    rintro rfl
    exact hfile hnames.symm
  obtain ⟨pre, ⟨rest, hrest⟩, rfl⟩ := Disk.passes_iff.1 ht
  obtain ⟨x, hx⟩ := Disk.place_of_pathExists hex
  have hfollow := (Disk.place_ok hx).2
  rw [hmore, ← hrest, List.append_assoc] at hfollow
  exact Disk.hasDirectory_of_follow hd hd.home (by simp [hne]) hfollow

/-- After a run without settings, a settings file is found if and only if the output path passes its
place, and then it is a directory. -/
theorem pathFor?_after {service : Service} {w : Workspace Disk}
    (hread : d.readBytes r.schema = .ok b)
    (hnone : Settings.pathFor? d r.settingsFile r.schema = none)
    (hslash : ∀ x ∈ service.resources, '/' ∉ (Naming.kebab x.name).toList)
    (htraces : Traces r d (r.standardPaths service) w)
    (hfirst : w.store.pathExists (r.output.join (.ofString "package.json")) = true) :
    if r.makesSettings d = true then ∃ file, Settings.pathFor? w.store r.settingsFile r.schema =
      some file ∧ w.store.pathExists file = true ∧ w.store.readBytes file = .error .isDirectory
    else Settings.pathFor? w.store r.settingsFile r.schema = none := by
  -- no settings file was asked for, and there is none beside the schema
  rcases hasked : r.settingsFile with _ | asked
  case some => simp [Settings.pathFor?, hasked] at hnone
  have hbeside : ∀ d, Settings.pathFor? d none r.schema = Settings.beside? d r.schema := fun _ => rfl
  rw [Request.makesSettings, hnone, hbeside]
  rw [hasked, hbeside] at hnone
  rw [Settings.beside?] at hnone ⊢
  rcases hdir : r.schema.parent? with _ | dir
  · simp
  have hmissing : d.standing? (d.trailOf dir ++ [settingsName]) = none := by
    rw [hdir, Option.map_some, Option.filter_eq_none_iff] at hnone
    have hno := hnone _ rfl
    rw [pathExists_beside hread hdir (Disk.Keeps.refl d).kinds, trailOf_join_fileName] at hno
    simpa using hno
  have hfound := pathExists_beside hread hdir htraces.kinds
  have hany := any_passes_standard d r hslash (d.trailOf dir)
  rw [trailOf_join_fileName] at hfound
  simp only [Option.isNone_none, Bool.true_and, Option.any_some, Option.map_some,
    trailOf_join_fileName]
  by_cases hpasses : d.passes r.output (d.trailOf dir ++ [settingsName]) = true
  -- the first file goes on from the place
  · have hdirectory : w.store.HasDirectory (d.trailOf dir ++ [settingsName]) :=
      hasDirectory_of_passes htraces.tree (by decide +kernel) (by decide +kernel) hfirst
        (by rwa [htraces.kinds.passes])
    obtain ⟨readable, hstands⟩ := hdirectory
    obtain ⟨x, hx⟩ := exists_place_beside hread hdir
    obtain ⟨y, hy⟩ := htraces.kinds.place_ok hx
    rw [if_pos hpasses]
    refine ⟨_, Option.filter_eq_some_iff.2 ⟨rfl, ?_⟩, ?_,
      Disk.readBytes_of_hasDirectory hy ⟨readable, ?_⟩⟩
    · rw [hfound, hstands, Option.isSome_some]
    · rw [hfound, hstands, Option.isSome_some]
    · rw [htraces.kinds.trailOf, trailOf_join_fileName, hstands]
  · rw [if_neg hpasses, Option.filter_eq_none_iff]
    intro path hpath
    obtain rfl := Option.some.inj hpath
    rw [hfound, Bool.not_eq_true, Option.isSome_eq_false_iff, Option.isNone_iff_eq_none,
      Option.eq_none_iff_forall_ne_some]
    intro x hx
    obtain hold | hpassed := htraces.known hx
    · simp [hmissing] at hold
    · exact hpasses (hany.symm.trans hpassed)

/-! ### The second run -/

/-- What a generation gives whose settings, schema and service can be settled. -/
theorem generate_of_settled {now : Instant} {settings : Settings} {found : Extraction}
    {service : Service}
    (hsettings : Settings.effective d r.settingsFile r.schema backend.toml = .ok settings)
    (hfound : SchemaFile.extraction d r.schema = .ok found)
    (hservice : Service.ofSchema (r.nameIn settings) found.schema = .ok service)
    {made : Emission}
    (hmade : emit (r.engine settings backend.renderer) r (r.tasks now settings service)
      ⟨d, .empty⟩ = made)
    (hok : made.failure = none) : generate now r d backend =
      { disk := made.workspace.store, warnings := found.warnings, outcomes := made.outcomes,
        result := .ok ⟨r.nameIn settings, service.resources.length⟩ } := by
  subst hmade
  simp only [generate, hsettings, hfound, hservice, hok]

/-- After a run, the settings are the same if the settings file is, unless the run makes one. -/
theorem effective_after {settings : Settings} {found : Extraction} {service : Service}
    {now : Instant} {w : Workspace Disk} (hd : d.IsTree) (hlive : r.dryRun = false)
    (hsettings : Settings.effective d r.settingsFile r.schema backend.toml = .ok settings)
    (hfound : SchemaFile.extraction d r.schema = .ok found)
    (hservice : Service.ofSchema (r.nameIn settings) found.schema = .ok service)
    (hpaths : RendersPaths backend.renderer)
    (hok : (emit (r.engine settings backend.renderer) r (r.tasks now settings service)
      ⟨d, .empty⟩).failure = none)
    (hw : (emit (r.engine settings backend.renderer) r (r.tasks now settings service)
      ⟨d, .empty⟩).workspace = w)
    (hsame : ∀ file ∈ r.sources d, w.store.readBytes file = d.readBytes file) :
    if r.makesSettings d = true then ∃ c,
      Settings.effective w.store r.settingsFile r.schema backend.toml = .error c
    else Settings.effective w.store r.settingsFile r.schema backend.toml = .ok settings := by
  have htraces := emit_traces hlive (traces_start hd) hok
  rw [hw, List.nil_append] at htraces
  rcases hfile : Settings.pathFor? d r.settingsFile r.schema with _ | file
  -- there was no settings file: the run is that of a standard project
  · obtain rfl : settings = {} := by
      rw [Settings.effective, hfile] at hsettings
      exact (Except.ok.inj hsettings).symm
    obtain ⟨b, hread⟩ := exists_readBytes_of_extraction hfound
    have hslash := slash_notMem_kebab_resource hfound hservice
    have houtcomes := path_outcomes_standard hslash hpaths hok
    rw [houtcomes] at htraces
    have hfirst : w.store.pathExists (r.output.join (.ofString "package.json")) = true := by
      have hmem : r.output.join (.ofString "package.json") ∈ r.standardPaths service :=
        List.mem_cons_self
      rw [← houtcomes] at hmem
      obtain ⟨outcome, houtcome, hpath⟩ := List.mem_map.1 hmem
      rw [← hpath, ← hw]
      exact pathExists_of_emit hlive hok outcome houtcome
    have hafter := pathFor?_after hread hfile hslash htraces hfirst
    split_ifs at hafter ⊢
    · obtain ⟨path, hpath, hex, hdirectory⟩ := hafter
      exact effective_of_directory hpath hex hdirectory
    · rw [Settings.effective, hafter]
  · have hno : r.makesSettings d = false := by simp [Request.makesSettings, hfile]
    have hload := load_of_effective hsettings hfile
    obtain ⟨b, hread⟩ := exists_readBytes_of_load hload
    have hread' := hsame file (by simp [Request.sources, hfile])
    rw [hread] at hread'
    rw [if_neg (by simp [hno])]
    exact effective_of_load (pathFor?_of_kinds htraces.kinds hfile)
      ((load_congr hread hread').trans hload)

/-- What a generation reports that has skipped all its files. -/
theorem reports_of_skipped {g : Generation} {paths : List FilePath}
    (h : g.outcomes = paths.map .skipped) :
    g.written = [] ∧ g.planned = [] ∧ g.skipped = paths := by
  rw [Generation.written, Generation.planned, Generation.skipped, h]
  simp [List.filterMap_map, Function.comp_def, Outcome.written?, Outcome.planned?,
    Outcome.skipped?]

/-- **Generating twice**, by any renderer that makes the standard paths.  A run without force that
succeeds keeps the bytes of its sources, unless the output path climbs out of a missing directory.
If it keeps them, the second run fails if the first has made a directory where its settings file is
looked for; otherwise it leaves everything as it is, skips the files of all tasks in order, and gives
the same as the first in all else. -/
theorem generate_repeats (now : Instant) (r : Request) (hd : d.IsTree)
    (hpaths : RendersPaths backend.renderer) (hlive : r.dryRun = false) (hforce : r.force = false)
    {summary : Summary} (hok : (generate now r d backend).result = .ok summary) :
    (d.climbs r.output = false →
      ∀ file ∈ r.sources d, (generate now r d backend).disk.readBytes file = d.readBytes file) ∧
    ((∀ file ∈ r.sources d, (generate now r d backend).disk.readBytes file = d.readBytes file) →
      (r.makesSettings d = true →
        (generate now r (generate now r d backend).disk backend).result.toOption = none) ∧
      (r.makesSettings d = false → ∃ (e : Engine) (tasks : List Task) (paths : List FilePath),
        r.plan? now d backend = some (e, tasks) ∧ tasks.map (Task.path e r.output) = paths.map .ok ∧
        generate now r (generate now r d backend).disk backend =
          { generate now r d backend with outcomes := paths.map .skipped } ∧
        (generate now r (generate now r d backend).disk backend).written = [] ∧
        (generate now r (generate now r d backend).disk backend).planned = [] ∧
        (generate now r (generate now r d backend).disk backend).skipped = paths)) := by
  obtain ⟨settings, found, service, hsettings, hfound, hservice, rfl⟩ := exists_of_generate hok
  have hplan := plan?_eq now hsettings hfound hservice
  have hdone := failure_of_generate hok hplan
  have hfirst := generate_of_settled hsettings hfound hservice rfl hdone
  have hdisk := congrArg Generation.disk hfirst
  dsimp only at hdisk
  refine ⟨fun hstays file hfile => ?_, fun hsame => ?_⟩
  · obtain ⟨b, hread⟩ := exists_readBytes_of_sources hsettings hfound file hfile
    have hkeeps := (emit_settled (e := r.engine settings backend.renderer) (w := ⟨d, .empty⟩)
      hforce ⟨hd, hstays⟩ (r.tasks now settings service)).1
    rw [hdisk, hread]
    exact hkeeps.readBytes hread
  have hafter := effective_after hd hlive hsettings hfound hservice hpaths hdone rfl (hdisk ▸ hsame)
  have hschema : SchemaFile.extraction (generate now r d backend).disk r.schema = .ok found :=
    (extraction_congr (hsame r.schema List.mem_cons_self)).trans hfound
  rw [← hdisk] at hafter
  refine ⟨fun hmakes => ?_, fun hno => ?_⟩
  · rw [if_pos hmakes] at hafter
    obtain ⟨c, hc⟩ := hafter
    rw [generate, hc]
    rfl
  · rw [if_neg (by simp [hno])] at hafter
    -- the second run finds the files of the first
    have hmap := map_path_outcomes hdone
    have hmade := emit_of_found (w := ⟨(generate now r d backend).disk, .empty⟩) hlive hforce hmap
      (by rw [hdisk]
          exact List.forall_mem_map.2 fun outcome => pathExists_of_emit hlive hdone outcome)
    have hsecond := generate_of_settled hafter hschema hservice hmade rfl
    refine ⟨_, _, _, hplan, hmap, ?_, ?_⟩
    · rw [hsecond, hfirst]
    · exact reports_of_skipped (congrArg Generation.outcomes hsecond)

/-! ### A project that cannot be generated again -/

/-- The first run makes a directory that the second takes for the settings file. -/
theorem generate_fails_again : (noteRequest "schemaforge.toml").force = false ∧
    (generate ⟨0⟩ (noteRequest "schemaforge.toml") noteProject).result.toBool = true ∧
    (generate ⟨0⟩ (noteRequest "schemaforge.toml")
      (generate ⟨0⟩ (noteRequest "schemaforge.toml") noteProject).disk).result.toOption = none := by
  have hruns : (fun first : Generation => (first.result.toBool,
        (generate ⟨0⟩ (noteRequest "schemaforge.toml") first.disk).result.toOption))
      (generate ⟨0⟩ (noteRequest "schemaforge.toml") noteProject) = (true, none) := by
    decide +kernel
  obtain ⟨hfirst, hsecond⟩ := by simpa only [Prod.mk.injEq] using hruns
  exact ⟨rfl, hfirst, hsecond⟩

/-- All files of a new project are left by the second run. -/
theorem generate_repeats_note : noteProject.IsTree ∧ (noteRequest "new").dryRun = false ∧
    (noteRequest "new").force = false ∧
    (∃ summary, (generate ⟨0⟩ (noteRequest "new") noteProject).result = .ok summary) ∧
    (noteRequest "new").makesSettings noteProject = false ∧
    ∃ paths : List FilePath,
      generate ⟨0⟩ (noteRequest "new") (generate ⟨0⟩ (noteRequest "new") noteProject).disk =
        { generate ⟨0⟩ (noteRequest "new") noteProject with outcomes := paths.map .skipped } := by
  have hd : noteProject.IsTree := by decide +kernel
  have hstays : noteProject.climbs (noteRequest "new").output = false := by decide +kernel
  have hmakes : (noteRequest "new").makesSettings noteProject = false := by decide +kernel
  have hresult : (generate ⟨0⟩ (noteRequest "new") noteProject).result.toBool = true := by
    decide +kernel
  obtain ⟨summary, hok⟩ := exists_ok_of_toBool hresult
  obtain ⟨hkept, hagain⟩ := generate_repeats ⟨0⟩ (noteRequest "new") hd
    rendersPaths_standard rfl rfl hok
  obtain ⟨e, tasks, paths, -, -, hsecond, -⟩ := (hagain (hkept hstays)).2 hmakes
  exact ⟨hd, rfl, rfl, ⟨summary, hok⟩, hmakes, paths, hsecond⟩

end Project

end ServiceScaffold
