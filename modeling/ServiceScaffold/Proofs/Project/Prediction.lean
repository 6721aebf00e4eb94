import ServiceScaffold.Proofs.Project.Outcomes

/-!
# What a dry run tells of a real one

A dry run plans the file of every task.  A real run without force leaves the files that it finds,
those that were there and those that it has made itself, so that it may write less than was planned.
What it does can still be told from the plan and the disk before the run (`Request.foresees`).

* `Traces.outcome_eq` : **whether a task writes its file**, from the disk before the run;
* `emit_foreseen` : what a run of tasks does to all its files;
* `dryRun_predicts_iff` : a plan is what the real run writes if and only if there is force, or no
  path leads to what was there or to a place that an earlier path passes.
-/

namespace ServiceScaffold.Project

open Template (Engine Workspace)

variable {e : Engine} {r : Request} {t : Task} {w w' : Workspace Disk} {d : Disk}
  {tasks : List Task} {earlier paths : List FilePath} {path : FilePath} {outcome : Outcome}
  {backend : Backend}

/-- A run without force finds something at the path of a file, after the files of the earlier ones:
it was there, or an earlier path passes the place.  What was there is not found by the first task if
the output path climbs out of a missing directory. -/
def Request.finds (r : Request) (d : Disk) (earlier : List FilePath) (path : FilePath) : Bool :=
  earlier.any (fun p => d.passes p (d.trailOf path)) ||
    (d.standing? (d.trailOf path)).isSome && !(d.climbs r.output && earlier.isEmpty)

/-- What a run does at the path of a file, after those at the earlier ones. -/
def Request.outcomeAt (r : Request) (d : Disk) (earlier : List FilePath) (path : FilePath) :
    Outcome :=
  if !r.force && r.finds d earlier path then .skipped path else .written path

/-- What a run does at its paths, after the earlier ones. -/
def Request.foresees (r : Request) (d : Disk) : List FilePath → List FilePath → List Outcome
  | _, [] => []
  | earlier, path :: later => r.outcomeAt d earlier path :: r.foresees d (earlier ++ [path]) later

/-- No path leads to something that was there, nor to a place that an earlier path passes.  For the
first path it does not count what was there if the output path climbs out of a missing directory. -/
def Request.IsFree (r : Request) (d : Disk) (paths : List FilePath) : Prop :=
  (∀ path ∈ paths.drop (d.climbs r.output).toNat, d.standing? (d.trailOf path) = none) ∧
    paths.Pairwise fun p q => d.passes p (d.trailOf q) = false

instance (r : Request) (d : Disk) (paths : List FilePath) : Decidable (r.IsFree d paths) :=
  inferInstanceAs (Decidable (_ ∧ _))

/-! ### A run of tasks -/

/-- What stands on the disk while a run that started on `d` is under way: what stood before, and what
the paths so far pass. -/
structure Traces (r : Request) (d : Disk) (earlier : List FilePath) (w : Workspace Disk) :
    Prop where
  tree : w.store.IsTree
  kinds : d.KeepsKinds w.store
  known {t : Trail} {x : DiskEntry} : w.store.standing? t = some x →
    (d.standing? t).isSome = true ∨ earlier.any (fun p => d.passes p t) = true
  passed {t : Trail} : earlier.any (fun p => d.passes p t) = true →
    ∃ x, w.store.standing? t = some x
  climbs : w.store.climbs r.output = (d.climbs r.output && earlier.isEmpty)

theorem traces_start (hd : d.IsTree) : Traces r d [] ⟨d, .empty⟩ where
  tree := hd
  kinds := (Disk.Keeps.refl d).kinds
  known h := .inl (by simp [h])
  passed h := by simp at h
  climbs := by simp

namespace Traces

/-- What is found stands there, and what stands there is found unless the output path climbs. -/
theorem finds_iff (h : Traces r d earlier w) : r.finds d earlier path = true ↔
    w.store.climbs r.output = false ∧ ∃ x, w.store.standing? (d.trailOf path) = some x := by
  rw [h.climbs, Request.finds, Bool.or_eq_true]
  constructor
  · rintro (hpasses | hthere)
    · have hne : earlier.isEmpty = false := by
        rw [Bool.eq_false_iff]
        intro hnil
        simp [List.isEmpty_iff.1 hnil] at hpasses
      exact ⟨by simp [hne], h.passed hpasses⟩
    · obtain ⟨hold, hstays⟩ := Bool.and_eq_true_iff.1 hthere
      obtain ⟨x, hx⟩ := Option.isSome_iff_exists.1 hold
      exact ⟨by rwa [Bool.not_eq_true'] at hstays, h.kinds.exists_standing hx⟩
  · rintro ⟨hstays, x, hx⟩
    rw [hstays]
    exact (h.known hx).symm.imp_right fun hold => by simp [hold]

/-- Whether a task that does not fail writes its file. -/
theorem outcome_eq (h : Traces r d earlier w) (hlive : r.dryRun = false)
    (hpath : t.path e r.output = .ok path) (hemits : t.Emits e r w (.ok outcome) w') :
    outcome = r.outcomeAt d earlier path := by
  rw [Request.outcomeAt]
  cases hemits with
  | planned _ _ hdry => simp [hlive] at hdry
  | skipped path' _ hpath' hex hforce =>
    obtain rfl : path = path' := Except.ok.inj (hpath.symm.trans hpath')
    obtain ⟨x, hx⟩ := Disk.standing?_of_pathExists hex
    rw [h.kinds.trailOf] at hx
    have hfinds := h.finds_iff.2 ⟨Task.stays_of_pathExists hpath hex, x, hx⟩
    rw [if_pos (by simp [hforce, hfinds])]
  | written path' text w₁ store _ hpath' hfree hrender hwrite =>
    obtain rfl : path = path' := Except.ok.inj (hpath.symm.trans hpath')
    rw [if_neg]
    intro hskip
    obtain ⟨hforce, hfinds⟩ := Bool.and_eq_true_iff.1 hskip
    obtain ⟨hstays, x, hx⟩ := h.finds_iff.1 hfinds
    -- without force nothing was found before the file was written, so that nothing stood there
    have hno : w.store.pathExists path = false := hfree.resolve_right (by simpa using hforce)
    obtain ⟨more, hmore, hinner⟩ := Task.components_path hpath
    have hclimb : w.store.climbs path = false := Disk.climbs_eq_false hstays hmore hinner
    have hnone := Disk.standing?_of_written hwrite h.tree hclimb hno
    rw [h.kinds.trailOf, hx] at hnone
    cases hnone

/-- What stands after a task stood before, or its path passes the place. -/
theorem known_step (h : Traces r d earlier w) (hlive : r.dryRun = false)
    (hpath : t.path e r.output = .ok path) (hemits : t.Emits e r w (.ok outcome) w') {t : Trail}
    {x : DiskEntry} (hx : w'.store.standing? t = some x) :
    (∃ x, w.store.standing? t = some x) ∨ d.passes path t = true := by
  cases hemits with
  | planned _ _ hdry => simp [hlive] at hdry
  | skipped => exact .inl ⟨x, hx⟩
  | written path' text w₁ store _ hpath' _ _ hwrite =>
    obtain rfl : path = path' := Except.ok.inj (hpath.symm.trans hpath')
    obtain ⟨mid, hgrows, -, hdir, -, rfl⟩ := Disk.write_ok hwrite
    have hpasses : ∀ pre, pre <+: path.components → t = Disk.trailFrom w.store.home pre →
        d.passes path t = true := fun pre hpre ht => by
      rw [← h.kinds.passes]
      exact Disk.passes_iff.2 ⟨pre, hpre, ht.symm⟩
    rw [Disk.standing?_put mid (Disk.ne_nil_of_not_hasDirectory hdir)] at hx
    split_ifs at hx with hself
    · exact .inr (hpasses _ List.prefix_rfl hself)
    · obtain hold | ⟨-, pre, hpre, ht⟩ := hgrows.made hx
      · exact .inl ⟨x, hold⟩
      · exact .inr (hpasses pre (hpre.trans (List.dropLast_prefix _)) ht)

/-- A task that does not fail adds what its path passes. -/
theorem step (h : Traces r d earlier w) (hlive : r.dryRun = false)
    (hpath : t.path e r.output = .ok path) (hemits : t.Emits e r w (.ok outcome) w') :
    Traces r d (earlier ++ [path]) w' := by
  have htree := hemits.tree h.tree
  have hkinds := h.kinds.trans hemits.kinds
  refine ⟨htree, hkinds, fun {t x} hx => ?_, fun {t} hpassed => ?_, ?_⟩
  · rw [List.any_append, Bool.or_eq_true]
    obtain ⟨x, hold⟩ | hself := h.known_step hlive hpath hemits hx
    · exact (h.known hold).imp_right .inl
    · exact .inr (.inr (by simpa using hself))
  · rw [List.any_append, Bool.or_eq_true] at hpassed
    obtain hpassed | hself := hpassed
    · obtain ⟨x, hx⟩ := h.passed hpassed
      exact hemits.kinds.exists_standing hx
    · have hex := hemits.pathExists hlive
      rw [hemits.path_eq hlive hpath] at hex
      refine Disk.exists_standing_of_passes htree hex ?_
      rw [hkinds.passes]
      simpa using hself
  · rw [(hemits.settles hlive h.tree).stays]
    simp

end Traces

/-- What a run of tasks does to all its files. -/
theorem emit_foreseen (hlive : r.dryRun = false) (h : Traces r d earlier w)
    (hok : (emit e r tasks w).failure = none) :
    (emit e r tasks w).outcomes =
      r.foresees d earlier ((emit e r tasks w).outcomes.map Outcome.path) := by
  induction tasks generalizing earlier w with
  | nil => rfl
  | cons t rest ih =>
    obtain ⟨outcome, houtcome, houtcomes, -, hok'⟩ := failure_emit_cons hok
    have hpath := Task.path_of_emit houtcome
    have hemits := t.emits_emit e r w
    rw [houtcome] at hemits
    rw [houtcomes, List.map_cons, Request.foresees, ← ih (h.step hlive hpath hemits) hok',
      ← h.outcome_eq hlive hpath hemits]

/-- A run of tasks adds what its paths pass. -/
theorem emit_traces (hlive : r.dryRun = false) (h : Traces r d earlier w)
    (hok : (emit e r tasks w).failure = none) :
    Traces r d (earlier ++ (emit e r tasks w).outcomes.map Outcome.path)
      (emit e r tasks w).workspace := by
  induction tasks generalizing earlier w with
  | nil => simpa [emit] using h
  | cons t rest ih =>
    obtain ⟨outcome, houtcome, houtcomes, hworkspace, hok'⟩ := failure_emit_cons hok
    have hemits := t.emits_emit e r w
    rw [houtcome] at hemits
    have hrest := ih (h.step hlive (Task.path_of_emit houtcome) hemits) hok'
    rw [houtcomes, hworkspace, List.map_cons]
    simpa using hrest

/-! ### The plan and the run -/

theorem path_outcomeAt (r : Request) (d : Disk) (earlier : List FilePath) (path : FilePath) :
    (r.outcomeAt d earlier path).path = path := by
  rw [Request.outcomeAt]
  split_ifs <;> rfl

theorem path_foresees (r : Request) (d : Disk) (earlier paths : List FilePath) :
    (r.foresees d earlier paths).map Outcome.path = paths := by
  induction paths generalizing earlier with
  | nil => rfl
  | cons path later ih => rw [Request.foresees, List.map_cons, ih, path_outcomeAt]

/-- A path is free after the earlier ones, and so are the later paths after it. -/
theorem free_cons_iff (r : Request) (d : Disk) (earlier : List FilePath) (path : FilePath)
    (later : List FilePath) :
    ((∀ q ∈ path :: later, earlier.any (fun p => d.passes p (d.trailOf q)) = false) ∧
      (∀ q ∈ (path :: later).drop (d.climbs r.output && earlier.isEmpty).toNat,
        d.standing? (d.trailOf q) = none) ∧
      (path :: later).Pairwise fun p q => d.passes p (d.trailOf q) = false) ↔
    r.finds d earlier path = false ∧
      (∀ q ∈ later, (earlier ++ [path]).any (fun p => d.passes p (d.trailOf q)) = false) ∧
      (∀ q ∈ later, d.standing? (d.trailOf q) = none) ∧
      later.Pairwise fun p q => d.passes p (d.trailOf q) = false := by
  have hfinds : r.finds d earlier path = false ↔
      earlier.any (fun p => d.passes p (d.trailOf path)) = false ∧
        ((d.climbs r.output && earlier.isEmpty) = false →
          d.standing? (d.trailOf path) = none) := by
    rw [Request.finds]
    cases d.climbs r.output && earlier.isEmpty <;> simp
  rw [hfinds]
  cases d.climbs r.output && earlier.isEmpty <;>
    simp only [List.forall_mem_cons, List.any_append, Bool.or_eq_false_iff, List.pairwise_cons,
      List.any_cons, List.any_nil, Bool.or_false, forall_and, Bool.toNat_false, Bool.toNat_true,
      List.drop_zero, List.drop_succ_cons, forall_const, reduceCtorEq, false_implies] <;>
    tauto

/-- What is foreseen are written files only, if there is force or all paths are free. -/
theorem written_foresees_iff (r : Request) (d : Disk) (earlier paths : List FilePath) :
    (r.foresees d earlier paths).filterMap Outcome.written? = paths ↔ r.force = true ∨
      (∀ q ∈ paths, earlier.any (fun p => d.passes p (d.trailOf q)) = false) ∧
      (∀ q ∈ paths.drop (d.climbs r.output && earlier.isEmpty).toNat,
        d.standing? (d.trailOf q) = none) ∧
      paths.Pairwise fun p q => d.passes p (d.trailOf q) = false := by
  induction paths generalizing earlier with
  | nil => simp [Request.foresees]
  | cons path later ih =>
    have hshort := (List.length_filterMap_le Outcome.written?
      (r.foresees d (earlier ++ [path]) later)).trans_eq
        ((List.length_map _).symm.trans (congrArg List.length (path_foresees r d _ later)))
    have hempty : (earlier ++ [path]).isEmpty = false := by simp
    rw [free_cons_iff, Request.foresees, Request.outcomeAt, List.filterMap_cons]
    have hlater := ih (earlier ++ [path])
    rw [hempty, Bool.and_false, Bool.toNat_false, List.drop_zero] at hlater
    by_cases hskip : (!r.force && r.finds d earlier path) = true
    -- a file that is skipped is missing among those that are written
    · rw [if_pos hskip]
      obtain ⟨hforce, hfinds⟩ := Bool.and_eq_true_iff.1 hskip
      refine iff_of_false (fun heq => ?_) (by simp_all)
      have hlength := congrArg List.length heq
      simp only [Outcome.written?, List.length_cons] at hlength
      omega
    · rw [if_neg hskip]
      simp only [Outcome.written?, List.cons.injEq, true_and, hlater]
      cases hforce : r.force <;> simp_all

theorem planned_of_outcomes {outcomes : List Outcome}
    (h : ∀ outcome ∈ outcomes, outcome = .planned outcome.path) :
    outcomes.filterMap Outcome.planned? = outcomes.map Outcome.path := by
  rw [← List.filterMap_eq_map]
  refine List.filterMap_congr fun outcome houtcome => ?_
  rw [h outcome houtcome]
  rfl

/-- **What a dry run tells of the real one.**  If both succeed on the same disk, the files that the
dry run plans are those of the real run, in order, and what becomes of each can be foreseen from the
disk.  The plan is what the real run writes if and only if there is force, or no path of the plan
leads to what was there or to a place that an earlier path passes. -/
theorem dryRun_predicts_iff (now : Instant) (r : Request) (hd : d.IsTree)
    (hlive : r.dryRun = false) {foreseen made : Summary}
    (hdry : (generate now { r with dryRun := true } d backend).result = .ok foreseen)
    (hmade : (generate now r d backend).result = .ok made) :
    (generate now r d backend).outcomes =
      r.foresees d [] (generate now { r with dryRun := true } d backend).planned ∧
    ((generate now { r with dryRun := true } d backend).planned =
        (generate now r d backend).written ↔
      r.force = true ∨ r.IsFree d (generate now { r with dryRun := true } d backend).planned) := by
  obtain ⟨settings, found, service, hsettings, hfound, hservice, -⟩ := exists_of_generate hmade
  have hplan := plan?_eq now hsettings hfound hservice
  generalize r.engine settings backend.renderer = e, r.tasks now settings service = tasks at hplan
  have hplan' : ({ r with dryRun := true } : Request).plan? now d backend = some (e, tasks) := hplan
  have hdone := failure_of_generate hmade hplan
  have hdone' := failure_of_generate hdry hplan'
  have houtcomes := (generate_eq now r d backend).2
  have houtcomes' := (generate_eq now { r with dryRun := true } d backend).2
  simp only [hplan] at houtcomes
  simp only [hplan'] at houtcomes'
  -- both runs have the paths of the tasks
  have hpaths : (generate now { r with dryRun := true } d backend).planned =
      (emit e r tasks ⟨d, .empty⟩).outcomes.map Outcome.path := by
    rw [Generation.planned, houtcomes', planned_of_outcomes (outcomes_dryRun rfl hdone')]
    have hsame := map_path_outcomes hdone
    rw [map_path_outcomes hdone'] at hsame
    exact List.map_injective_iff.2 (fun _ _ => Except.ok.inj) hsame
  have hforeseen := emit_foreseen hlive (traces_start hd) hdone
  rw [hpaths, Generation.written, houtcomes]
  refine ⟨hforeseen, ?_⟩
  have hwritten := written_foresees_iff r d [] ((emit e r tasks ⟨d, .empty⟩).outcomes.map
    Outcome.path)
  rw [← hforeseen] at hwritten
  rw [eq_comm, hwritten]
  simp [Request.IsFree]

/-! ### What a plan does not tell -/

/-- A request for the directory with the file that is written by hand. -/
def heldRequest : Request := { schema := .ofString "note.ts", output := .ofString "kept" }

/-- The dry run plans a file that the real run leaves as it is. -/
theorem plan_counts_kept :
    (generate ⟨0⟩ { heldRequest with dryRun := true } keptProject).result.toBool = true ∧
    (generate ⟨0⟩ heldRequest keptProject).result.toBool = true ∧
    (generate ⟨0⟩ { heldRequest with dryRun := true } keptProject).planned =
      [.ofString "kept/a"] ∧
    (generate ⟨0⟩ heldRequest keptProject).written = [] := by
  have hruns : (fun g g' : Generation => (g.result.toBool, g'.result.toBool, g.planned, g'.written))
        (generate ⟨0⟩ { heldRequest with dryRun := true } keptProject)
        (generate ⟨0⟩ heldRequest keptProject) =
      (true, true, [.ofString "kept/a"], []) := by
    decide +kernel
  simpa only [Prod.mk.injEq] using hruns

/-- A project with two artifacts; the second leads to the directory of the first. -/
def nestedProject : Disk where
  entries := [(["p".toList], .directory true),
    (["p".toList, "note.ts".toList],
      .file "/** @resource */ export interface Note { id: string; }".toUTF8),
    (["p".toList, "schemaforge.toml".toList],
      .file ("[[artifacts]]\ntemplate = \"a\"\noutput = \"sub/x\"\n" ++
        "[[artifacts]]\ntemplate = \"a\"\noutput = \"sub\"\n").toUTF8),
    (["p".toList, "templates".toList], .directory true),
    (["p".toList, "templates".toList, "a".toList], .file "generated".toUTF8)]
  home := ["p".toList]

/-- A request for files in a directory that is not there. -/
def nestedRequest : Request := { schema := .ofString "note.ts", output := .ofString "out" }

/-- What was planned is not free, and not what was written. -/
theorem dryRun_predicts_nested : nestedProject.IsTree ∧ nestedRequest.dryRun = false ∧
    (∃ foreseen made,
      (generate ⟨0⟩ { nestedRequest with dryRun := true } nestedProject).result = .ok foreseen ∧
      (generate ⟨0⟩ nestedRequest nestedProject).result = .ok made) ∧
    ¬nestedRequest.IsFree nestedProject (["out/sub/x", "out/sub"].map .ofString) ∧
    (generate ⟨0⟩ { nestedRequest with dryRun := true } nestedProject).planned ≠
      (generate ⟨0⟩ nestedRequest nestedProject).written := by
  have hd : nestedProject.IsTree := by decide +kernel
  have hruns : (fun g g' : Generation => (g.result.toBool, g'.result.toBool, g.planned))
        (generate ⟨0⟩ { nestedRequest with dryRun := true } nestedProject)
        (generate ⟨0⟩ nestedRequest nestedProject) =
      (true, true, ["out/sub/x", "out/sub"].map .ofString) := by
    decide +kernel
  obtain ⟨hdry, hmade, hplanned⟩ := by simpa only [Prod.mk.injEq] using hruns
  have hfree : ¬nestedRequest.IsFree nestedProject (["out/sub/x", "out/sub"].map .ofString) := by
    decide +kernel
  rcases hforeseen : (generate ⟨0⟩ { nestedRequest with dryRun := true } nestedProject).result with
    c | foreseen
  · rw [hforeseen] at hdry
    cases hdry
  rcases hresult : (generate ⟨0⟩ nestedRequest nestedProject).result with c | made
  · rw [hresult] at hmade
    cases hmade
  have hiff := (dryRun_predicts_iff ⟨0⟩ nestedRequest hd rfl hforeseen hresult).2
  refine ⟨hd, rfl, ⟨foreseen, made, rfl, rfl⟩, hfree, fun heq => ?_⟩
  rw [hplanned] at hiff heq
  exact (hiff.1 heq).elim (by simp [nestedRequest]) hfree

end ServiceScaffold.Project
