import ServiceScaffold.Proofs.Lint.RouteCollisions
import ServiceScaffold.Proofs.Project.Preservation
import ServiceScaffold.Proofs.Project.StandardFiles
import ServiceScaffold.Proofs.Results
import ServiceScaffold.Proofs.Schema.Names
import ServiceScaffold.Proofs.Template.Loading
import ServiceScaffold.Proofs.Template.Lookup

/-!
# What a generation writes

A run writes each file of a project or leaves it, and which of both can be told from the disk before
the run: a file is left if something stands at its place, and also if the output path itself passes
that place, since the directory made there on the way is then found instead of the file.

* `Underway` : what holds while the tasks of a run are carried out;
* `Underway.step` : **what one task does**, and that it keeps the invariant;
* `emit_underway` : what a run of tasks does;
* `generate_complete` : for a schema without lint errors, the files that a generation writes, those
  that it leaves, and their contents.
-/

namespace ServiceScaffold.Project

open Template (Engine Workspace isValidName)

variable {e : Engine} {r : Request} {t : Task} {w w' : Workspace Disk} {d : Disk}
  {path : FilePath} {done : List Trail} {outcome : Outcome} {backend : Backend}

/-! ### One task -/

/-- What holds while the tasks of a run that started on `d` are carried out; `done` are the places
of the files so far. -/
structure Underway (e : Engine) (r : Request) (d : Disk) (done : List Trail)
    (w : Workspace Disk) : Prop where
  tree : w.store.IsTree
  kinds : d.KeepsKinds w.store
  /-- Nothing has come to stand but the files, and directories on the way to them. -/
  known {t : Trail} {x : DiskEntry} : w.store.standing? t = some x →
    (∃ x, d.standing? t = some x) ∨ d.passes r.output t = true ∨
      d.trailOf r.output <+: t ∧ ∃ s ∈ done, t <+: s
  outside {t : Trail} {b : ByteArray} : ¬d.trailOf r.output <+: t →
    (w.store.standing? t = some (.file b) ↔ d.standing? t = some (.file b))
  cached {name : String} {x : Template.Loaded} :
    w.cache.get? name = some x → e.fromDisk d name = .ok x

/-- The output directory is disjoint from those where templates are looked for. -/
def TemplatesApart (e : Engine) (r : Request) (d : Disk) : Prop :=
  ∀ dir ∈ Template.searchDirs e.base e.framework, d.IsApart dir r.output

theorem underway_start (hd : d.IsTree) : Underway e r d [] ⟨d, .empty⟩ where
  tree := hd
  kinds := (Disk.Keeps.refl d).kinds
  known h := .inl ⟨_, h⟩
  outside _ := Iff.rfl
  cached h := by cases h

namespace Underway

/-- Templates read as they did before the run. -/
theorem faithful (h : Underway e r d done w) (hd : d.IsTree)
    (hapart : TemplatesApart e r d) : e.Faithful d w := by
  refine ⟨fun name q hname hq b => ?_, h.cached⟩
  obtain ⟨dir, hdir, more, hmore, hinner⟩ := Template.isBelow_of_mem_candidates hname hq
  obtain ⟨hdirs, hclosed⟩ := hapart dir hdir
  rcases hclimbs : d.climbs dir with _ | _
  -- what is read outside of the output directory is as it was
  · have hstays : d.climbs q = false := Disk.climbs_eq_false hclimbs hmore hinner
    refine h.kinds.readBytes_iff hd hstays fun b => h.outside ?_
    rw [Disk.trailOf_of_components hmore hinner]
    intro hprefix
    obtain hdir' | hout := List.prefix_or_prefix_of_prefix hprefix (List.prefix_append _ _)
    · exact hdirs.2 hdir'
    · exact hdirs.1 hout
  · -- the way to the templates is closed before the run, and stays so
    obtain ⟨pre, rest, hcomponents, hrest, hnone, hpasses, hbelow⟩ := hclosed hclimbs
    have hq : q.components = pre ++ (rest ++ more) := by
      rw [hmore, hcomponents, List.append_assoc]
    have hne : rest ++ more ≠ [] := List.append_ne_nil_of_left_ne_nil hrest more
    have hnone' : w.store.standing? (Disk.trailFrom w.store.home pre) = none := by
      rw [h.kinds.home, Option.eq_none_iff_forall_ne_some]
      intro x hx
      obtain ⟨x, hold⟩ | hpassed | ⟨hout, -⟩ := h.known hx
      · rw [hnone] at hold
        cases hold
      · rw [hpasses] at hpassed
        cases hpassed
      · exact hbelow hout
    exact iff_of_false (Disk.readBytes_ne_ok h.tree hq hne hnone')
      (Disk.readBytes_ne_ok hd hq hne hnone)

theorem mono (h : Underway e r d done w) (s : Trail) : Underway e r d (s :: done) w where
  tree := h.tree
  kinds := h.kinds
  known hx := (h.known hx).imp_right <| Or.imp_right fun ⟨hout, s, hs, hprefix⟩ =>
    ⟨hout, s, List.mem_cons_of_mem _ hs, hprefix⟩
  outside := h.outside
  cached := h.cached

/-- Where something is found, it was there before, or the output path passes the place. -/
theorem leaves_of_exists (h : Underway e r d done w) (hex : w.store.pathExists path = true)
    (hnew : ∀ s ∈ done, ¬d.trailOf path <+: s) :
    (d.standing? (d.trailOf path)).isSome = true ∨ d.passes r.output (d.trailOf path) = true := by
  obtain ⟨x, hx⟩ := Disk.standing?_of_pathExists hex
  rw [h.kinds.trailOf] at hx
  obtain ⟨x, hx⟩ | hpasses | ⟨-, s, hs, hprefix⟩ := h.known hx
  · exact .inl (by simp [hx])
  · exact .inr hpasses
  · exact absurd hprefix (hnew s hs)

end Underway

/-- The run leaves what it finds at the path of a file; the output path climbs out of a missing
directory when the file is looked for. -/
def Request.leavesAt (r : Request) (d : Disk) (climbs : Bool) (path : FilePath) : Bool :=
  d.passes r.output (d.trailOf path) ||
    (!r.force && (d.standing? (d.trailOf path)).isSome && !climbs)

/-- What one task does to the file at its path. -/
structure Settles (e : Engine) (r : Request) (d : Disk) (done : List Trail) (climbs : Bool)
    (t : Task) (path : FilePath) (outcome : Outcome) (w' : Workspace Disk) : Prop where
  underway : Underway e r d (d.trailOf path :: done) w'
  stays : w'.store.climbs r.output = false
  outcome : outcome = if r.leavesAt d climbs path then .skipped path else .written path
  content : r.leavesAt d climbs path = false → ∃ text,
    ((e.render t.template t.data).on ⟨d, .empty⟩).1 = .ok text ∧
      w'.store.readBytes path = .ok text.toUTF8

section Writing

variable {more : List Component} {b : ByteArray} {store : Disk}
  (hmore : path.components = r.output.components ++ more)
  (hinner : more.all Component.isInner = true) (hwrite : w.store.write path b = (.ok (), store))

include hmore hinner hwrite

/-- Writing the file of a task keeps the invariant. -/
theorem Underway.write (h : Underway e r d done w) {cache : Template.Cache}
    (hcached : ∀ {name x}, cache.get? name = some x → e.fromDisk d name = .ok x) :
    Underway e r d (d.trailOf path :: done) ⟨store, cache⟩ where
  tree := Disk.isTree_write hwrite h.tree
  kinds := h.kinds.trans (Disk.write_kinds hwrite)
  known hx := by
    obtain ⟨x, hold⟩ | hpasses | ⟨hout, hself⟩ :=
      Disk.standing?_write_below hwrite hmore hinner hx
    · exact (h.mono _).known hold
    · exact .inr (.inl (h.kinds.passes r.output _ ▸ hpasses))
    · rw [h.kinds.trailOf] at hout hself
      exact .inr (.inr ⟨hout, _, List.mem_cons_self, hself⟩)
  outside ht := by
    have hout : ¬w.store.trailOf r.output <+: _ := h.kinds.trailOf r.output ▸ ht
    exact (Disk.file_write_outside hwrite hmore hinner hout).trans (h.outside ht)
  cached := hcached

/-- A file that is written is not one that the run leaves. -/
theorem Underway.leavesAt_of_write (h : Underway e r d done w)
    (hinside : d.trailOf path ≠ d.trailOf r.output)
    (hfree : w.store.pathExists path = false ∨ r.force = true) :
    r.leavesAt d (w.store.climbs r.output) path = false := by
  have hne : more ≠ [] := by
    rintro rfl
    exact hinside (by rw [Disk.trailOf_of_components hmore hinner]; simp)
  have hpasses := Disk.not_passes_of_write hwrite h.tree hmore hne
  rw [h.kinds.passes, h.kinds.trailOf] at hpasses
  rw [Request.leavesAt, hpasses, Bool.false_or]
  rcases hfree with hno | hforce
  · rcases hclimbs : w.store.climbs r.output with _ | _
    · have hstays : w.store.climbs path = false := Disk.climbs_eq_false hclimbs hmore hinner
      have hnone := Disk.standing?_of_written hwrite h.tree hstays hno
      rw [h.kinds.trailOf] at hnone
      -- what stood there before would have been found
      rcases hs : d.standing? (d.trailOf path) with _ | x
      · simp
      · obtain ⟨x, hx⟩ := h.kinds.exists_standing hs
        rw [hnone] at hx
        cases hx
    · simp
  · simp [hforce]

end Writing

/-- What one task does, and that it keeps the invariant. -/
theorem Underway.step (h : Underway e r d done w) (hd : d.IsTree)
    (hapart : TemplatesApart e r d) (hlive : r.dryRun = false)
    (hpath : t.path e r.output = .ok path) (hnew : ∀ s ∈ done, ¬d.trailOf path <+: s)
    (hinside : d.trailOf path ≠ d.trailOf r.output) (hemits : t.Emits e r w (.ok outcome) w') :
    Settles e r d done (w.store.climbs r.output) t path outcome w' := by
  obtain ⟨more, hmore, hinner⟩ := Task.components_path hpath
  have hstays := (hemits.settles hlive h.tree).stays
  cases hemits with
  | planned _ _ hdry => simp [hlive] at hdry
  | skipped path' _ hpath' hex hforce =>
    obtain rfl : path = path' := Except.ok.inj (hpath.symm.trans hpath')
    -- what is found stood there before, or was made on the way to the output directory
    have hleaves : r.leavesAt d (w.store.climbs r.output) path = true := by
      have hfound := h.leaves_of_exists hex hnew
      simp only [Request.leavesAt, hforce, hstays]
      grind
    refine ⟨h.mono _, hstays, by rw [if_pos hleaves], fun hno => ?_⟩
    rw [hleaves] at hno
    cases hno
  | written path' text w₁ store _ hpath' hfree hrender hwrite =>
    obtain rfl : path = path' := Except.ok.inj (hpath.symm.trans hpath')
    -- the text is that of the disk before the run
    have hfaithful := (h.faithful hd hapart).render t.template t.data
    rw [hrender] at hfaithful
    have hleaves := h.leavesAt_of_write hmore hinner hwrite hinside hfree
    have hunderway := h.write hmore hinner hwrite hfaithful.2.cached
    refine ⟨hunderway, hstays, ?_, fun _ => ⟨text, hfaithful.1.symm, ?_⟩⟩
    · rw [hleaves]
      rfl
    · exact Disk.readBytes_write_self hwrite

/-! ### Runs -/

theorem readBytes_emit {path' : FilePath} {b : ByteArray} {x : Except Chain Outcome}
    (hemits : t.Emits e r w x w') (hpath : t.path e r.output = .ok path)
    (hne : w.store.trailOf path' ≠ w.store.trailOf path)
    (hread : w.store.readBytes path' = .ok b) (hok : x.toBool = true) :
    w'.store.readBytes path' = .ok b := by
  cases hemits with
  | failed c => cases hok
  | planned _ _ _ hstore => rwa [hstore]
  | skipped => exact hread
  | unwritten c => cases hok
  | written path'' _ _ store _ hpath'' _ _ hwrite =>
    obtain rfl : path = path'' := Except.ok.inj (hpath.symm.trans hpath'')
    exact Disk.readBytes_write hwrite hread hne

theorem failure_emit_cons {rest : List Task} (h : (emit e r (t :: rest) w).failure = none) :
    ∃ outcome, (t.emit e r w).1 = .ok outcome ∧
      (emit e r (t :: rest) w).outcomes =
        outcome :: (emit e r rest (t.emit e r w).2).outcomes ∧
      (emit e r (t :: rest) w).workspace = (emit e r rest (t.emit e r w).2).workspace ∧
      (emit e r rest (t.emit e r w).2).failure = none := by
  rw [emit] at h ⊢
  rcases hx : t.emit e r w with ⟨c | outcome, w'⟩
  · simp [hx] at h
  · rw [hx] at h
    exact ⟨outcome, rfl, rfl, rfl, h⟩

/-- What a run of tasks does: which files it leaves, what it writes to the others, and that it
changes no other file. -/
structure Completes (e : Engine) (r : Request) (d : Disk) (w : Workspace Disk)
    (leaves : FilePath → Bool) (tasks : List Task) (paths : List FilePath) : Prop where
  outcomes : (emit e r tasks w).outcomes =
    paths.map fun path => if leaves path then .skipped path else .written path
  content : List.Forall₂ (fun t path => leaves path = false → ∃ text,
    ((e.render t.template t.data).on ⟨d, .empty⟩).1 = .ok text ∧
      (emit e r tasks w).workspace.store.readBytes path = .ok text.toUTF8) tasks paths
  frame {path : FilePath} {b : ByteArray} : (∀ path' ∈ paths, d.trailOf path ≠ d.trailOf path') →
    w.store.readBytes path = .ok b → (emit e r tasks w).workspace.store.readBytes path = .ok b

namespace Completes

variable {leaves leaves' : FilePath → Bool} {tasks : List Task} {paths : List FilePath}

theorem congr (h : Completes e r d w leaves tasks paths)
    (hsame : ∀ path ∈ paths, leaves path = leaves' path) :
    Completes e r d w leaves' tasks paths where
  outcomes := by
    rw [h.outcomes]
    exact List.map_congr_left fun path hpath => by rw [hsame path hpath]
  content := by
    have hcontent := h.content
    rw [List.forall₂_iff_zip] at hcontent ⊢
    exact ⟨hcontent.1, fun {t path} hmem hno =>
      hcontent.2 hmem ((hsame path (List.of_mem_zip hmem).2).trans hno)⟩
  frame := h.frame

/-- One task and those after it. -/
theorem cons (h : Underway e r d done w) (hd : d.IsTree) (hapart : TemplatesApart e r d)
    (hlive : r.dryRun = false) (hpath : t.path e r.output = .ok path)
    (hinside : d.trailOf path ≠ d.trailOf r.output)
    (hnew : ∀ s ∈ done, Trail.Apart (d.trailOf path) s)
    (hlater : ∀ path' ∈ paths, Trail.Apart (d.trailOf path) (d.trailOf path'))
    (hleaves : leaves path = r.leavesAt d (w.store.climbs r.output) path)
    (hrest : ∀ w', Underway e r d (d.trailOf path :: done) w' → w'.store.climbs r.output = false →
      (emit e r tasks w').failure = none → Completes e r d w' leaves tasks paths)
    (hok : (emit e r (t :: tasks) w).failure = none) :
    Completes e r d w leaves (t :: tasks) (path :: paths) := by
  obtain ⟨outcome, houtcome, houtcomes, hworkspace, hok'⟩ := failure_emit_cons hok
  have hemits := t.emits_emit e r w
  rw [houtcome] at hemits
  -- the task itself, then those after it, which do not touch its file
  have hstep := h.step hd hapart hlive hpath (fun s hs => (hnew s hs).1) hinside hemits
  have hafter := hrest _ hstep.underway hstep.stays hok'
  refine ⟨?_, .cons (fun hno => ?_) ?_, fun {path' b} hne hread => ?_⟩
  · rw [houtcomes, hafter.outcomes, hstep.outcome, List.map_cons, hleaves]
  · obtain ⟨text, hrender, hread⟩ := hstep.content (hleaves ▸ hno)
    refine ⟨text, hrender, ?_⟩
    rw [hworkspace]
    exact hafter.frame (fun path' hpath' => (hlater path' hpath').ne) hread
  · rw [hworkspace]
    exact hafter.content
  · rw [hworkspace]
    refine hafter.frame (fun p hp => hne p (List.mem_cons_of_mem _ hp)) ?_
    refine readBytes_emit hemits hpath ?_ hread rfl
    rw [h.kinds.trailOf, h.kinds.trailOf]
    exact hne path List.mem_cons_self

end Completes

/-- What a run of tasks does, once the output path does not climb. -/
theorem emit_underway (hd : d.IsTree) (hapart : TemplatesApart e r d) (hlive : r.dryRun = false)
    {tasks : List Task} {paths : List FilePath} (h : Underway e r d done w)
    (hstays : w.store.climbs r.output = false)
    (hpaths : List.Forall₂ (fun t path => t.path e r.output = .ok path) tasks paths)
    (hpair : (paths.map d.trailOf).Pairwise Trail.Apart)
    (hnew : ∀ path ∈ paths, d.trailOf path ≠ d.trailOf r.output ∧
      ∀ s ∈ done, Trail.Apart (d.trailOf path) s)
    (hok : (emit e r tasks w).failure = none) :
    Completes e r d w (r.leavesAt d false) tasks paths := by
  induction hpaths generalizing done w with
  | nil => exact ⟨rfl, .nil, fun _ hread => hread⟩
  | @cons t path tasks paths hpath hpaths ih =>
    rw [List.map_cons, List.pairwise_cons] at hpair
    obtain ⟨hinside, hdone⟩ := hnew path List.mem_cons_self
    have hlater : ∀ path' ∈ paths, Trail.Apart (d.trailOf path) (d.trailOf path') :=
      fun path' hpath' => hpair.1 _ (List.mem_map.2 ⟨path', hpath', rfl⟩)
    refine .cons h hd hapart hlive hpath hinside hdone hlater (by rw [hstays]) ?_ hok
    intro w' hw' hstays' hok'
    refine ih hw' hstays' hpair.2 (fun path' hpath' => ?_) hok'
    obtain ⟨hinside', hdone'⟩ := hnew path' (List.mem_cons_of_mem _ hpath')
    refine ⟨hinside', fun s hs => ?_⟩
    obtain rfl | hs := List.mem_cons.1 hs
    · exact (hlater path' hpath').symm
    · exact hdone' s hs

/-! ### Generations -/

/-- The run leaves what it finds at the path of a file.  Where the output path climbs out of a
missing directory, the first file is not found. -/
def Request.leaves (r : Request) (d : Disk) (path : FilePath) : Bool :=
  r.leavesAt d (d.climbs r.output && path == r.output.join (.ofString "package.json")) path

theorem Task.Emits.follow_output (h : t.Emits e r w (.ok outcome) w') (hlive : r.dryRun = false) :
    w.store.follow w.store.home r.output.components ≠ .error .notDirectory := by
  intro hno
  cases h with
  | planned _ _ hdry => simp [hlive] at hdry
  | skipped path _ hpath hex =>
    obtain ⟨more, hmore, -⟩ := Task.components_path hpath
    obtain ⟨x, hx⟩ := Disk.place_of_pathExists hex
    obtain ⟨y, hy⟩ := Disk.exists_follow_of_append (hmore ▸ (Disk.place_ok hx).2)
    rw [hno] at hy
    cases hy
  | written path _ _ store _ hpath _ _ hwrite =>
    obtain ⟨more, hmore, -⟩ := Task.components_path hpath
    obtain ⟨mid, hgrows, ⟨x, hx⟩, -⟩ := Disk.write_ok hwrite
    obtain ⟨y, hy⟩ := Disk.exists_follow_of_append (hmore ▸ (Disk.place_ok hx).2)
    rw [hgrows.home, hgrows.kinds.follow_notDirectory hno] at hy
    cases hy

theorem follow_output_of_emit {tasks : List Task} (hok : (emit e r tasks w).failure = none)
    (htasks : tasks ≠ []) (hlive : r.dryRun = false) :
    w.store.follow w.store.home r.output.components ≠ .error .notDirectory := by
  obtain ⟨t, rest, rfl⟩ := List.exists_cons_of_ne_nil htasks
  obtain ⟨outcome, houtcome, -⟩ := failure_emit_cons hok
  have hemits := t.emits_emit e r w
  rw [houtcome] at hemits
  exact hemits.follow_output hlive

section Vacant

variable {names : Trail} (hvacant : d.IsVacant r.output)
  (htrail : d.trailOf path = d.trailOf r.output ++ names) (hnames : names ≠ [])

include hvacant htrail hnames

/-- In a vacant directory the files that are left are those whose places the output path passes. -/
theorem leaves_eq_passes : r.leaves d path = d.passes r.output (d.trailOf path) := by
  have hnone : d.standing? (d.trailOf path) = none := htrail ▸ hvacant names hnames
  simp [Request.leaves, Request.leavesAt, hnone]

/-- An output path that does not climb passes no place in a vacant directory. -/
theorem passes_eq_false (hd : d.IsTree) (hstays : d.climbs r.output = false)
    (hfollow : d.follow d.home r.output.components ≠ .error .notDirectory) :
    d.passes r.output (d.trailOf path) = false := by
  have hnone : d.standing? (d.trailOf path) = none := htrail ▸ hvacant names hnames
  rw [← Bool.not_eq_true]
  intro hpasses
  obtain ⟨pre, ⟨cs, hcs⟩, hpre⟩ := Disk.passes_iff.1 hpasses
  rw [Disk.climbs, ← hcs] at hstays
  rw [← hcs] at hfollow
  rw [← hpre] at hnone
  have hinner := Disk.inner_of_missing hd hd.home hstays hfollow hnone
  -- the path goes down only from there, so that it would end at the file or below
  have hout : d.trailOf r.output = d.trailOf path ++ cs.filterMap Component.name? := by
    rw [← hpre, ← Disk.trailFrom_inner _ hinner, ← Disk.trailFrom_append, hcs, Disk.trailOf]
  have hlength := congrArg List.length hout
  rw [htrail] at hlength
  have hpos := List.length_pos_iff.2 hnames
  simp only [List.length_append] at hlength
  omega

end Vacant

/-- The run of the standard tasks. -/
theorem completes_standard (hd : d.IsTree) (hapart : TemplatesApart e r d)
    (hlive : r.dryRun = false) (he : RendersPaths e.renderer) {settings : Settings} {now : Instant}
    (hartifacts : settings.effectiveArtifacts = Artifact.standard) {service : Service}
    (hslash : ∀ x ∈ service.resources, '/' ∉ (Naming.kebab x.name).toList)
    (hdiffer : (service.resources.map fun x => Naming.kebab x.name).Nodup)
    (hok : (emit e r (r.tasks now settings service) ⟨d, .empty⟩).failure = none) :
    Completes e r d ⟨d, .empty⟩ (r.leaves d) (r.tasks now settings service)
      (r.standardPaths service) := by
  have hpaths : List.Forall₂ (fun t path => t.path e r.output = .ok path)
      (r.tasks now settings service) (r.standardPaths service) := by
    rw [Request.standardPaths, List.forall₂_map_right_iff]
    exact forall₂_path_tasks hartifacts now hslash he
  have hpair := apart_trails d r hslash hdiffer
  have hinside : ∀ path ∈ r.standardPaths service, d.trailOf path ≠ d.trailOf r.output := by
    intro path hpath
    obtain ⟨file, hfile, rfl⟩ := List.mem_map.1 hpath
    rw [trailOf_join d r.output (isValidName_standardFiles hslash file hfile)]
    simpa using namesOf_ne_nil hslash file hfile
  obtain ⟨later, hlater⟩ : ∃ later, r.standardPaths service =
      r.output.join (.ofString "package.json") :: later := ⟨_, rfl⟩
  rw [hlater] at hpaths hpair hinside ⊢
  -- only the first file is looked for while the output path may still climb
  generalize r.tasks now settings service = tasks at hpaths hok ⊢
  cases hpaths with
  | @cons t _ tasks _ hpath hpaths =>
    rw [List.map_cons, List.pairwise_cons] at hpair
    have hapart' : ∀ path ∈ later, Trail.Apart
        (d.trailOf (r.output.join (.ofString "package.json"))) (d.trailOf path) :=
      fun path hpath => hpair.1 _ (List.mem_map.2 ⟨path, hpath, rfl⟩)
    refine .cons (underway_start hd) hd hapart hlive hpath (hinside _ List.mem_cons_self)
      (fun s hs => by cases hs) hapart' (by simp [Request.leaves]) ?_ hok
    intro w' hw' hstays hok'
    have hnew : ∀ path ∈ later, d.trailOf path ≠ d.trailOf r.output ∧
        ∀ s ∈ [d.trailOf (r.output.join (.ofString "package.json"))],
          Trail.Apart (d.trailOf path) s := by
      intro path hpath
      refine ⟨hinside path (List.mem_cons_of_mem _ hpath), fun s hs => ?_⟩
      obtain rfl := List.mem_singleton.1 hs
      exact (hapart' path hpath).symm
    refine (emit_underway hd hapart hlive hw' hstays hpaths hpair.2 hnew hok').congr ?_
    intro path hpath
    have hne : (path == r.output.join (.ofString "package.json")) = false :=
      beq_eq_false_iff_ne.2 fun heq => (hapart' path hpath).ne (heq ▸ rfl)
    rw [Request.leaves, hne, Bool.and_false]

theorem ofSource_of_extraction {file : FilePath} {found : Extraction}
    (h : SchemaFile.extraction d file = .ok found) :
    ∃ source, Schema.ofSource source file.text = .ok found := by
  unfold SchemaFile.extraction at h
  rcases hread : SchemaFile.read d file with c | source
  · rw [hread] at h
    cases h
  · rw [hread] at h
    refine ⟨source, ?_⟩
    rcases hsource : Schema.ofSource source file.text with f | x
    · simp [bind, Except.bind, Chain.ofResult, Except.mapError, hsource] at h
    · simpa [bind, Except.bind, Chain.ofResult, Except.mapError, hsource] using h

section Schemas

variable {name : String} {found : Extraction} {service : Service}

/-- No file of a resource lies in a directory of its own. -/
theorem slash_notMem_kebab_resource {file : FilePath}
    (hfound : SchemaFile.extraction d file = .ok found)
    (hservice : Service.ofSchema name found.schema = .ok service) :
    ∀ x ∈ service.resources, '/' ∉ (Naming.kebab x.name).toList := by
  intro x hx
  obtain ⟨source, hsource⟩ := ofSource_of_extraction hfound
  have hnames := (Service.isRouted_ofSchema hservice).2
  have hmem : x.name ∈ found.schema.roles.resources := hnames ▸ List.mem_map.2 ⟨x, hx, rfl⟩
  exact Naming.slash_notMem_kebab (Schema.slash_notMem_resource hsource hmem)

/-- Without lint errors the resources differ in kebab case. -/
theorem nodup_kebab (hservice : Service.ofSchema name found.schema = .ok service)
    (hlint : Lint.hasErrors (Lint.issues found.schema service) = false) :
    (service.resources.map fun x => Naming.kebab x.name).Nodup := by
  have hrouted := (Service.isRouted_ofSchema hservice).1
  have hpaths : service.resources.map Resource.pluralPath =
      (service.resources.map fun x => Naming.kebab x.name).map Naming.plural := by
    rw [List.map_map]
    exact List.map_congr_left fun x hx => (hrouted x hx).segment
  have hnodup := (Lint.hasErrors_iff found.schema service).1 hlint
  rw [hpaths] at hnodup
  exact hnodup.of_map

end Schemas

theorem filterMap_outcomes (leaves : FilePath → Bool) (paths : List FilePath) :
    (paths.map fun path => if leaves path then Outcome.skipped path else .written path).filterMap
        Outcome.skipped? = paths.filter leaves ∧
      (paths.map fun path => if leaves path then Outcome.skipped path else .written path).filterMap
        Outcome.written? = paths.filter (!leaves ·) := by
  induction paths with
  | nil => exact ⟨rfl, rfl⟩
  | cons path paths ih =>
    rw [List.map_cons, List.filterMap_cons, List.filterMap_cons, ih.1, ih.2]
    cases hpath : leaves path <;> simp [hpath, Outcome.skipped?, Outcome.written?]

/-- **What the generation of a project without lint errors writes**, by any renderer that makes the
standard paths.  Its files, five and one for every resource, stand at different places.  The run
skips those that it leaves (`Request.leaves`) and writes the others, each of which holds in the end
what its own template gives for its own data.  In a vacant directory only a file whose place the
output path passes is left, and none if the output path does not climb out of a missing directory. -/
theorem generate_complete (now : Instant) (r : Request) (hd : d.IsTree)
    (hpaths : RendersPaths backend.renderer) {settings : Settings} {found : Extraction}
    {service : Service} {summary : Summary}
    (hsettings : Settings.effective d r.settingsFile r.schema backend.toml = .ok settings)
    (hartifacts : settings.effectiveArtifacts = Artifact.standard)
    (hfound : SchemaFile.extraction d r.schema = .ok found)
    (hservice : Service.ofSchema (r.nameIn settings) found.schema = .ok service)
    (hlint : Lint.hasErrors (Lint.issues found.schema service) = false)
    (hlive : r.dryRun = false) (hapart : TemplatesApart (r.engine settings backend.renderer) r d)
    (hok : (generate now r d backend).result = .ok summary) :
    (r.standardPaths service).length = 5 + service.resources.length ∧
    ((r.standardPaths service).map d.trailOf).Nodup ∧
    (generate now r d backend).skipped = (r.standardPaths service).filter (r.leaves d) ∧
    (generate now r d backend).written = (r.standardPaths service).filter (!r.leaves d ·) ∧
    List.Forall₂ (fun t path => r.leaves d path = false → ∃ text,
        (((r.engine settings backend.renderer).render t.template t.data).on ⟨d, .empty⟩).1 =
            .ok text ∧
          (generate now r d backend).disk.readText path = .ok text)
      (r.tasks now settings service) (r.standardPaths service) ∧
    (d.IsVacant r.output →
      (∀ path ∈ r.standardPaths service,
        r.leaves d path = d.passes r.output (d.trailOf path)) ∧
      (d.climbs r.output = false →
        (generate now r d backend).skipped = [] ∧
          (generate now r d backend).written = r.standardPaths service)) := by
  have hslash := slash_notMem_kebab_resource hfound hservice
  have hdiffer := nodup_kebab hservice hlint
  have hplan : r.plan? now d backend =
      some (r.engine settings backend.renderer, r.tasks now settings service) := by
    rw [Request.plan?, hsettings, hfound]
    simp only [hservice]
  obtain ⟨hdisk, houtcomes⟩ := generate_eq now r d backend
  simp only [hplan] at hdisk houtcomes
  have hdone := failure_of_generate hok hplan
  have hcompletes := completes_standard hd hapart hlive hpaths hartifacts hslash hdiffer hdone
  have hskipped : (generate now r d backend).skipped =
      (r.standardPaths service).filter (r.leaves d) := by
    rw [Generation.skipped, houtcomes, hcompletes.outcomes]
    exact (filterMap_outcomes (r.leaves d) (r.standardPaths service)).1
  have hwritten : (generate now r d backend).written =
      (r.standardPaths service).filter (!r.leaves d ·) := by
    rw [Generation.written, houtcomes, hcompletes.outcomes]
    exact (filterMap_outcomes (r.leaves d) (r.standardPaths service)).2
  have htrail : ∀ path ∈ r.standardPaths service, ∃ names, names ≠ [] ∧
      d.trailOf path = d.trailOf r.output ++ names := by
    intro path hpath
    obtain ⟨file, hfile, rfl⟩ := List.mem_map.1 hpath
    exact ⟨namesOf file, namesOf_ne_nil hslash file hfile,
      trailOf_join d r.output (isValidName_standardFiles hslash file hfile)⟩
  refine ⟨length_standardPaths r service, ?_, hskipped, hwritten, ?_,
    fun hvacant => ⟨fun path hpath => ?_, fun hstays => ?_⟩⟩
  · exact (apart_trails d r hslash hdiffer).imp fun {a b} hab => hab.ne
  · refine hcompletes.content.imp fun t path hcontent hno => ?_
    obtain ⟨text, hrender, hread⟩ := hcontent hno
    exact ⟨text, hrender, Disk.readText_of_readBytes (hdisk ▸ hread)⟩
  · obtain ⟨names, hnames, htrail⟩ := htrail path hpath
    exact leaves_eq_passes hvacant htrail hnames
  -- there is a task, and it was carried out, so that no file is in the way of the output path
  · have hlength := hcompletes.content.length_eq
    rw [length_standardPaths] at hlength
    have htasks : r.tasks now settings service ≠ [] := fun hnil => by
      rw [hnil, List.length_nil] at hlength
      omega
    have hfollow := follow_output_of_emit hdone htasks hlive
    have hnone : ∀ path ∈ r.standardPaths service, r.leaves d path = false := by
      intro path hpath
      obtain ⟨names, hnames, htrail⟩ := htrail path hpath
      rw [leaves_eq_passes hvacant htrail hnames]
      exact passes_eq_false hvacant htrail hnames hd hstays hfollow
    rw [hskipped, hwritten, List.filter_eq_nil_iff, List.filter_eq_self]
    exact ⟨fun path hpath => by simp [hnone path hpath], fun path hpath => by
      simp [hnone path hpath]⟩

/-! ### A project with one resource -/

/-- A schema with one resource, beside the standard templates. -/
def noteProject : Disk where
  entries :=
    [["p"], ["p", "templates"], ["p", "templates", "src"]].map
        (fun names => (names.map String.toList, .directory true)) ++
      [(["p", "note.ts"], "/** @resource */ export interface Note { id: string; }"),
        (["p", "templates", "package.json"], "package"),
        (["p", "templates", "tsconfig.json"], "options"),
        (["p", "templates", "README.md"], "about"),
        (["p", "templates", "src", "server.ts"], "server"),
        (["p", "templates", "src", "types.ts"], "types"),
        (["p", "templates", "src", "resource.ts"], "resource")].map
          fun (names, text) => (names.map String.toList, .file text.toUTF8)
  home := ["p".toList]

/-- A request for the project in a directory. -/
def noteRequest (output : String) : Request :=
  { schema := .ofString "note.ts", output := .ofString output }

/-- A check of what `generate_complete` asks of a request, but for its success. -/
def isClean (r : Request) (d : Disk) : Bool :=
  (Settings.effective d r.settingsFile r.schema).toOption.any fun settings =>
    (SchemaFile.extraction d r.schema).toOption.any fun found =>
      (Service.ofSchema (r.nameIn settings) found.schema).toOption.any fun service =>
        settings.effectiveArtifacts == Artifact.standard &&
          !Lint.hasErrors (Lint.issues found.schema service) && !r.dryRun &&
          let e := r.engine settings .standard
          (Template.searchDirs e.base e.framework).all fun dir =>
            !d.climbs dir && decide (Trail.Apart (d.trailOf dir) (d.trailOf r.output))

theorem isClean_spec (h : isClean r d = true) : ∃ settings found service,
    Settings.effective d r.settingsFile r.schema = .ok settings ∧
    settings.effectiveArtifacts = Artifact.standard ∧
    SchemaFile.extraction d r.schema = .ok found ∧
    Service.ofSchema (r.nameIn settings) found.schema = .ok service ∧
    Lint.hasErrors (Lint.issues found.schema service) = false ∧ r.dryRun = false ∧
    TemplatesApart (r.engine settings .standard) r d := by
  unfold isClean at h
  obtain ⟨settings, hsettings, h⟩ := exists_ok_of_any h
  obtain ⟨found, hfound, h⟩ := exists_ok_of_any h
  obtain ⟨service, hservice, h⟩ := exists_ok_of_any h
  simp only [Bool.and_eq_true, beq_iff_eq, Bool.not_eq_true', List.all_eq_true,
    decide_eq_true_eq] at h
  obtain ⟨⟨⟨hartifacts, hlint⟩, hlive⟩, hapart⟩ := h
  exact ⟨settings, found, service, hsettings, hartifacts, hfound, hservice, hlint, hlive,
    fun dir hdir => ⟨(hapart dir hdir).2, fun hclimbs => by simp [(hapart dir hdir).1] at hclimbs⟩⟩

/-- All files of the project are written into a new directory. -/
theorem generate_complete_note : ∃ service summary,
    isClean (noteRequest "new") noteProject = true ∧
    (generate ⟨0⟩ (noteRequest "new") noteProject).result = .ok summary ∧
    (generate ⟨0⟩ (noteRequest "new") noteProject).skipped = [] ∧
    (generate ⟨0⟩ (noteRequest "new") noteProject).written =
      (noteRequest "new").standardPaths service := by
  have hd : noteProject.IsTree := by decide +kernel
  have hclean : isClean (noteRequest "new") noteProject = true := by decide +kernel
  have hresult : (generate ⟨0⟩ (noteRequest "new") noteProject).result.toBool = true := by
    decide +kernel
  obtain ⟨settings, found, service, hsettings, hartifacts, hfound, hservice, hlint, hlive,
    hapart⟩ := isClean_spec hclean
  obtain ⟨summary, hok⟩ := exists_ok_of_toBool hresult
  have hvacant : noteProject.IsVacant (noteRequest "new").output := by
    have hnone : noteProject.standing? (noteProject.trailOf (noteRequest "new").output) = none := by
      decide +kernel
    exact fun below _ => hd.standing?_append_of_none hnone below
  have hstays : noteProject.climbs (noteRequest "new").output = false := by decide +kernel
  obtain ⟨-, -, -, -, -, hall⟩ := generate_complete ⟨0⟩ (noteRequest "new") hd
    rendersPaths_standard hsettings hartifacts hfound hservice hlint hlive hapart hok
  exact ⟨service, summary, hclean, hok, (hall hvacant).2 hstays⟩

/-- The output path passes the place of a file, which is left although nothing was there. -/
theorem generate_leaves_passed :
    isClean (noteRequest "new/README.md/..") noteProject = true ∧
    noteProject.pathExists (.ofString "new") = false ∧
    (generate ⟨0⟩ (noteRequest "new/README.md/..") noteProject).result.toBool = true ∧
    (generate ⟨0⟩ (noteRequest "new/README.md/..") noteProject).skipped =
      [.ofString "new/README.md/../README.md"] ∧
    (generate ⟨0⟩ (noteRequest "new/README.md/..") noteProject).disk.isDirectory
      (.ofString "new/README.md/../README.md") = true := by
  decide +kernel

end ServiceScaffold.Project
