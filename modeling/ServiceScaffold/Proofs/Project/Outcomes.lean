import ServiceScaffold.Proofs.Project.Completeness

/-!
# What becomes of the tasks of a run

Every task of a run that succeeds has an outcome, and the outcome is about the path of the task.

* `map_path_outcomes` : the outcomes of a run are about the paths of its tasks, in order;
* `outcomes_dryRun` : a dry run plans every file;
* `pathExists_of_emit` : **after a run without dryness something stands at every path**, written or
  found;
* `emit_of_found` : a run without force that finds something everywhere does nothing.
-/

namespace ServiceScaffold

namespace Disk

variable {d d' : Disk} {p : FilePath} {t : Trail}

theorem pathExists_iff : d.pathExists p = true ↔ (∃ x, d.place p = .ok x) ∧
    (d.HasDirectory (d.trailOf p) ∨
      (∃ b, d.standing? (d.trailOf p) = some (.file b)) ∧ wantsDirectory p = false) := by
  rcases hp : d.place p with x | x
  · simp [pathExists, stat, hp, Except.toBool]
  · obtain rfl := trail_of_place_ok hp
    rw [pathExists, stat, hp, HasDirectory]
    rcases d.standing? (d.trailOf p) with _ | ⟨b | r⟩
    · simp [Except.toBool]
    · by_cases hwants : wantsDirectory p = true <;> simp [hwants, Except.toBool]
    · simp [Except.toBool]

/-- What is found at a path is found there as long as files stay files. -/
theorem KeepsKinds.pathExists (h : d.KeepsKinds d') (hp : d.pathExists p = true) :
    d'.pathExists p = true := by
  obtain ⟨⟨x, hx⟩, hstands⟩ := pathExists_iff.1 hp
  refine pathExists_iff.2 ⟨h.place_ok hx, ?_⟩
  rw [h.trailOf]
  exact hstands.imp h.directory fun ⟨⟨b, hb⟩, hplain⟩ => ⟨h.file hb, hplain⟩

theorem pathExists_of_readBytes {b : ByteArray} (h : d.readBytes p = .ok b) :
    d.pathExists p = true := by
  obtain ⟨hplace, hstands, hplain⟩ := readBytes_eq_ok_iff.1 h
  exact pathExists_iff.2 ⟨hplace, .inr ⟨⟨b, hstands⟩, hplain⟩⟩

/-- Something stands wherever a path leads on its way to what is found. -/
theorem exists_standing_of_passes (hd : d.IsTree) (hp : d.pathExists p = true)
    (ht : d.passes p t = true) : ∃ x, d.standing? t = some x := by
  obtain ⟨pre, ⟨rest, hrest⟩, rfl⟩ := passes_iff.1 ht
  by_cases hne : rest = []
  · obtain ⟨x, hx⟩ := standing?_of_pathExists hp
    refine ⟨x, ?_⟩
    rwa [trailOf, ← hrest, hne, List.append_nil] at hx
  · obtain ⟨x, hx⟩ := place_of_pathExists hp
    obtain ⟨r, hr⟩ := hasDirectory_of_follow hd hd.home hne (hrest ▸ (place_ok hx).2)
    exact ⟨_, hr⟩

end Disk

namespace Project

open Template (Engine Workspace)

variable {e : Engine} {r : Request} {t : Task} {w w' : Workspace Disk} {d : Disk}
  {tasks : List Task} {paths : List FilePath} {outcome : Outcome} {backend : Backend}

/-- The path that an outcome is about. -/
def Outcome.path : Outcome → FilePath
  | .written path | .skipped path | .planned path => path

/-! ### One task -/

/-- The outcome of a task is about the path of the task. -/
theorem Task.path_of_emit (h : (t.emit e r w).1 = .ok outcome) :
    t.path e r.output = .ok outcome.path := by
  unfold Task.emit at h
  rcases hpath : t.path e r.output with c | path
  · rw [hpath] at h
    cases h
  · rw [hpath] at h
    dsimp only at h
    split_ifs at h
    · rcases hon : (e.render t.template t.data).on w with ⟨_ | _, _⟩ <;> rw [hon] at h
      · cases h
      · obtain rfl := Except.ok.inj h
        rfl
    · obtain rfl := Except.ok.inj h
      rfl
    · rcases hon : (e.renderToFile t.template path t.data).on w with ⟨_ | _, _⟩ <;> rw [hon] at h
      · cases h
      · obtain rfl := Except.ok.inj h
        rfl

theorem Task.Emits.path_eq {path : FilePath} (h : t.Emits e r w (.ok outcome) w')
    (hlive : r.dryRun = false) (hpath : t.path e r.output = .ok path) : outcome.path = path := by
  cases h with
  | planned _ _ hdry => simp [hlive] at hdry
  | skipped _ _ hpath' => exact Except.ok.inj (hpath'.symm.trans hpath)
  | written _ _ _ _ _ hpath' => exact Except.ok.inj (hpath'.symm.trans hpath)

theorem Task.Emits.kinds {x : Except Chain Outcome} (h : t.Emits e r w x w') :
    w.store.KeepsKinds w'.store := by
  have hrefl := (Disk.Keeps.refl w.store).kinds
  cases h with
  | failed _ _ hstore => rwa [hstore]
  | planned _ _ _ hstore => rwa [hstore]
  | skipped => exact hrefl
  | unwritten _ _ _ _ _ _ _ _ _ _ hwrite => exact (Disk.write_error hwrite).kinds
  | written _ _ _ _ _ _ _ _ hwrite => exact Disk.write_kinds hwrite

theorem Task.Emits.tree {x : Except Chain Outcome} (h : t.Emits e r w x w')
    (hd : w.store.IsTree) : w'.store.IsTree := by
  cases h with
  | failed _ _ hstore => rwa [hstore]
  | planned _ _ _ hstore => rwa [hstore]
  | skipped => exact hd
  | unwritten _ _ _ _ _ _ _ _ _ _ hwrite => exact (Disk.write_error hwrite).tree hd
  | written _ _ _ _ _ _ _ _ hwrite => exact Disk.isTree_write hwrite hd

/-- After a task that does not fail something is found at its path, unless the run is dry. -/
theorem Task.Emits.pathExists (h : t.Emits e r w (.ok outcome) w') (hlive : r.dryRun = false) :
    w'.store.pathExists outcome.path = true := by
  cases h with
  | planned _ _ hdry => simp [hlive] at hdry
  | skipped _ _ _ hex => exact hex
  | written _ _ _ _ _ _ _ _ hwrite =>
    exact Disk.pathExists_of_readBytes (Disk.readBytes_write_self hwrite)

/-! ### Runs -/

theorem kinds_emit (e : Engine) (r : Request) (tasks : List Task) (w : Workspace Disk) :
    w.store.KeepsKinds (emit e r tasks w).workspace.store := by
  induction tasks generalizing w with
  | nil => exact (Disk.Keeps.refl w.store).kinds
  | cons t rest ih =>
    have hstep := (t.emits_emit e r w).kinds
    rw [workspace_emit_cons]
    rcases hx : t.emit e r w with ⟨c | outcome, w'⟩ <;> rw [hx] at hstep
    · exact hstep
    · exact hstep.trans (ih w')

/-- The outcomes of a run are about the paths of its tasks. -/
theorem map_path_outcomes (hok : (emit e r tasks w).failure = none) :
    tasks.map (Task.path e r.output) =
      ((emit e r tasks w).outcomes.map Outcome.path).map .ok := by
  induction tasks generalizing w with
  | nil => rfl
  | cons t rest ih =>
    obtain ⟨outcome, houtcome, houtcomes, -, hok'⟩ := failure_emit_cons hok
    rw [houtcomes, List.map_cons, List.map_cons, List.map_cons, ih hok',
      Task.path_of_emit houtcome]

/-- What holds of every outcome of a single task holds of the outcomes of a run. -/
theorem forall_outcomes {P : Outcome → Prop}
    (hP : ∀ (t : Task) w outcome w', t.Emits e r w (.ok outcome) w' → P outcome)
    (hok : (emit e r tasks w).failure = none) :
    ∀ outcome ∈ (emit e r tasks w).outcomes, P outcome := by
  induction tasks generalizing w with
  | nil => exact fun _ h => by cases h
  | cons t rest ih =>
    obtain ⟨outcome, houtcome, houtcomes, -, hok'⟩ := failure_emit_cons hok
    have hemits := t.emits_emit e r w
    rw [houtcome] at hemits
    rw [houtcomes]
    exact List.forall_mem_cons.2 ⟨hP t w _ _ hemits, ih hok'⟩

/-- A dry run plans every file. -/
theorem outcomes_dryRun (hdry : r.dryRun = true) (hok : (emit e r tasks w).failure = none) :
    ∀ outcome ∈ (emit e r tasks w).outcomes, outcome = .planned outcome.path := by
  refine forall_outcomes (fun t w outcome w' hemits => ?_) hok
  cases hemits with
  | planned => rfl
  | skipped _ hlive => simp [hdry] at hlive
  | written _ _ _ _ hlive => simp [hdry] at hlive

/-- After a run something is found at every path of its tasks, unless the run is dry. -/
theorem pathExists_of_emit (hlive : r.dryRun = false) (hok : (emit e r tasks w).failure = none) :
    ∀ outcome ∈ (emit e r tasks w).outcomes,
      (emit e r tasks w).workspace.store.pathExists outcome.path = true := by
  induction tasks generalizing w with
  | nil => exact fun _ h => by cases h
  | cons t rest ih =>
    obtain ⟨outcome, houtcome, houtcomes, hworkspace, hok'⟩ := failure_emit_cons hok
    have hemits := t.emits_emit e r w
    rw [houtcome] at hemits
    rw [houtcomes, hworkspace]
    -- the later tasks leave a file where there was one
    have hlater := kinds_emit e r rest (t.emit e r w).2
    exact List.forall_mem_cons.2 ⟨hlater.pathExists (hemits.pathExists hlive), ih hok'⟩

/-- A run without force that finds something at every path leaves everything as it is. -/
theorem emit_of_found (hlive : r.dryRun = false) (hforce : r.force = false)
    (hpaths : tasks.map (Task.path e r.output) = paths.map .ok)
    (hfound : ∀ path ∈ paths, w.store.pathExists path = true) :
    emit e r tasks w = ⟨paths.map .skipped, none, w⟩ := by
  induction tasks generalizing paths with
  | nil =>
    obtain rfl : paths = [] := by simpa using hpaths
    rfl
  | cons t rest ih =>
    obtain ⟨path, later, rfl, hpath, hlater⟩ := List.map_eq_cons_iff.1 hpaths.symm
    obtain ⟨hex, hexists⟩ := List.forall_mem_cons.1 hfound
    have hskip : t.emit e r w = (.ok (.skipped path), w) := by
      simp [Task.emit, ← hpath, hlive, hex, hforce]
    rw [emit, hskip]
    simp only [ih hlater.symm hexists, List.map_cons]

/-! ### Generations -/

/-- What a generation that succeeds has settled before its first task. -/
theorem exists_of_generate {now : Instant} {summary : Summary}
    (hok : (generate now r d backend).result = .ok summary) :
    ∃ settings found service,
      Settings.effective d r.settingsFile r.schema backend.toml = .ok settings ∧
      SchemaFile.extraction d r.schema = .ok found ∧
      Service.ofSchema (r.nameIn settings) found.schema = .ok service ∧
      summary = ⟨r.nameIn settings, service.resources.length⟩ := by
  unfold generate at hok
  rcases hsettings : Settings.effective d r.settingsFile r.schema backend.toml with c | settings
  · simp [hsettings] at hok
  rcases hfound : SchemaFile.extraction d r.schema with c | found
  · simp [hsettings, hfound] at hok
  simp only [hsettings, hfound] at hok
  rcases hservice : Service.ofSchema (r.nameIn settings) found.schema with f | service
  · simp [hservice] at hok
  simp only [hservice] at hok
  refine ⟨settings, found, service, rfl, rfl, hservice, ?_⟩
  split at hok
  · cases hok
  · exact (Except.ok.inj hok).symm

theorem plan?_eq (now : Instant) {settings : Settings} {found : Extraction} {service : Service}
    (hsettings : Settings.effective d r.settingsFile r.schema backend.toml = .ok settings)
    (hfound : SchemaFile.extraction d r.schema = .ok found)
    (hservice : Service.ofSchema (r.nameIn settings) found.schema = .ok service) :
    r.plan? now d backend =
      some (r.engine settings backend.renderer, r.tasks now settings service) := by
  rw [Request.plan?, hsettings, hfound]
  simp only [hservice]

end Project

end ServiceScaffold
