import ServiceScaffold.Proofs.Project.Tasks

/-!
# What a generation leaves as it was

A dry run changes nothing at all.  A run without force looks for a file before it writes it, and
leaves what it finds.  But it looks before the directories above the file are made: if the output
path climbs out of a directory that is not there (`absent/../kept`), it finds nothing, and once the
directory is made the same path leads to a file that was there.

* `Settled` : the disk is a tree, and the output path does not climb out of a missing directory;
* `Task.Emits.settled` : **a task without force keeps all files of a settled disk**, and leaves the
  disk settled, whether it fails or not;
* `Task.Emits.settles` : the first task that does not fail settles every disk;
* `generate_preserves` : what a generation changes, exactly.
-/

namespace ServiceScaffold.Project

open Template (Engine Workspace)

variable {e : Engine} {r : Request} {t : Task} {w : Workspace Disk} {d : Disk}

/-- The disk is a tree, and the output path does not climb out of a directory that is not there. -/
structure Settled (r : Request) (d : Disk) : Prop where
  tree : d.IsTree
  stays : d.climbs r.output = false

theorem Settled.of_keeps {d' : Disk} (h : Settled r d) (hkeeps : d.Keeps d') (htree : d'.IsTree) :
    Settled r d' := by
  refine ⟨htree, ?_⟩
  rw [Disk.climbs, hkeeps.home]
  exact hkeeps.kinds.climbsFrom h.stays

/-- Where the path of a task is found, the output path does not climb. -/
theorem Task.stays_of_pathExists {path : FilePath} (hpath : t.path e r.output = .ok path)
    (h : d.pathExists path = true) : d.climbs r.output = false := by
  obtain ⟨more, hmore, -⟩ := Task.components_path hpath
  obtain ⟨x, hx⟩ := Disk.place_of_pathExists h
  obtain ⟨y, hy⟩ := Disk.exists_follow_of_append (hmore ▸ (Disk.place_ok hx).2)
  exact Disk.climbsFrom_of_follow_ok hy

/-- A task without force keeps all files of a settled disk and leaves the disk settled. -/
theorem Task.Emits.settled {x : Except Chain Outcome} {w' : Workspace Disk}
    (h : t.Emits e r w x w') (hforce : r.force = false) (hw : Settled r w.store) :
    w.store.Keeps w'.store ∧ Settled r w'.store := by
  cases h with
  | failed c _ hstore =>
    rw [hstore]
    exact ⟨.refl _, hw⟩
  | planned path _ _ hstore =>
    rw [hstore]
    exact ⟨.refl _, hw⟩
  | skipped path => exact ⟨.refl _, hw⟩
  | unwritten c path text w₁ p store _ hpath hfree hrender hwrite =>
    have hgrows := Disk.write_error hwrite
    exact ⟨hgrows.toKeeps, hw.of_keeps hgrows.toKeeps (hgrows.tree hw.tree)⟩
  | written path text w₁ store _ hpath hfree hrender hwrite =>
    obtain ⟨more, hmore, hinner⟩ := Task.components_path hpath
    have hclimb : w.store.climbs path = false := Disk.climbs_eq_false hw.stays hmore hinner
    have hno : w.store.pathExists path = false := hfree.resolve_right (by simp [hforce])
    have hkeeps := Disk.write_keeps hwrite hw.tree hclimb hno
    exact ⟨hkeeps, hw.of_keeps hkeeps (Disk.isTree_write hwrite hw.tree)⟩

/-- Tasks without force keep all files of a settled disk. -/
theorem emit_settled (hforce : r.force = false) (hw : Settled r w.store) (tasks : List Task) :
    w.store.Keeps (emit e r tasks w).workspace.store ∧
      Settled r (emit e r tasks w).workspace.store := by
  induction tasks generalizing w with
  | nil => exact ⟨.refl _, hw⟩
  | cons t rest ih =>
    have hstep := (t.emits_emit e r w).settled hforce hw
    rw [workspace_emit_cons]
    rcases hx : t.emit e r w with ⟨c | outcome, w'⟩ <;> rw [hx] at hstep
    · exact hstep
    · obtain ⟨hkeeps, hsettled⟩ := ih hstep.2
      exact ⟨hstep.1.trans hkeeps, hsettled⟩

/-- A task that does not fail settles the disk, unless the run is dry. -/
theorem Task.Emits.settles {outcome : Outcome} {w' : Workspace Disk}
    (h : t.Emits e r w (.ok outcome) w') (hlive : r.dryRun = false) (hw : w.store.IsTree) :
    Settled r w'.store := by
  cases h with
  | planned path _ hdry => simp [hlive] at hdry
  | skipped path _ hpath hex => exact ⟨hw, Task.stays_of_pathExists hpath hex⟩
  | written path text w₁ store _ hpath hfree hrender hwrite =>
    obtain ⟨more, hmore, -⟩ := Task.components_path hpath
    exact ⟨Disk.isTree_write hwrite hw, Disk.climbs_write hwrite ⟨more, hmore.symm⟩⟩

theorem Task.Emits.store_dryRun {x : Except Chain Outcome} {w' : Workspace Disk}
    (h : t.Emits e r w x w') (hdry : r.dryRun = true) : w'.store = w.store := by
  cases h with
  | failed c _ hstore => exact hstore
  | planned path _ _ hstore => exact hstore
  | skipped path => rfl
  | unwritten c path text w₁ p store hlive => simp [hdry] at hlive
  | written path text w₁ store hlive => simp [hdry] at hlive

/-- Tasks of a dry run leave the disk as it is. -/
theorem store_emit_dryRun (hdry : r.dryRun = true) (tasks : List Task) (w : Workspace Disk) :
    (emit e r tasks w).workspace.store = w.store := by
  induction tasks generalizing w with
  | nil => rfl
  | cons t rest ih =>
    have hstep := (t.emits_emit e r w).store_dryRun hdry
    rw [workspace_emit_cons]
    rcases hx : t.emit e r w with ⟨c | outcome, w'⟩ <;> rw [hx] at hstep
    · exact hstep
    · exact (ih w').trans hstep

/-! ### The first task -/

/-- The first task of a request renders this text, and the text can be written at this path. -/
def Request.WritesFirst (r : Request) (now : Instant) (d : Disk) (backend : Backend)
    (path : FilePath) (text : String) : Prop :=
  ∃ e t rest, r.plan? now d backend = some (e, t :: rest) ∧ t.path e r.output = .ok path ∧
    ((e.render t.template t.data).on ⟨d, .empty⟩).1 = .ok text ∧
    (d.write path text.toUTF8).1 = .ok ()

variable {trail : Trail} {b : ByteArray}

/-- What is changed by a run without force is changed by its first task, through an output path that
climbs out of a missing directory. -/
theorem first_of_changed (hlive : r.dryRun = false) (hforce : r.force = false) (hd : d.IsTree)
    {tasks : List Task} (hs : d.standing? trail = some (.file b))
    (hne : (emit e r tasks ⟨d, .empty⟩).workspace.store.standing? trail ≠ some (.file b)) :
    d.climbs r.output = true ∧ ∃ t rest path text, tasks = t :: rest ∧
      t.path e r.output = .ok path ∧
      ((e.render t.template t.data).on ⟨d, .empty⟩).1 = .ok text ∧
      (d.write path text.toUTF8).1 = .ok () ∧ d.trailOf path = trail ∧ text.toUTF8 ≠ b := by
  -- a run on a settled disk keeps all files
  have hclimb : d.climbs r.output = true := by
    by_contra hc
    have hw : Settled r (Workspace.mk d .empty).store := ⟨hd, by simpa using hc⟩
    exact hne ((emit_settled (e := e) hforce hw tasks).1.standing hs)
  refine ⟨hclimb, ?_⟩
  cases tasks with
  | nil => exact absurd hs hne
  | cons t rest =>
    have hstep := t.emits_emit e r ⟨d, .empty⟩
    rw [workspace_emit_cons] at hne
    rcases hx : t.emit e r ⟨d, .empty⟩ with ⟨c | outcome, w'⟩ <;> rw [hx] at hstep hne
    · exfalso
      cases hstep with
      | failed _ _ hstore => exact hne (hstore ▸ hs)
      | unwritten _ path text w₁ p store _ _ _ _ hwrite =>
        exact hne ((Disk.write_error hwrite).standing hs)
    -- the first task settles the disk, so that the others keep what it leaves
    · have hkeeps := (emit_settled (e := e) hforce (hstep.settles hlive hd) rest).1
      cases hstep with
      | planned path _ hdry => simp [hlive] at hdry
      | skipped path _ hpath hex => simp [Task.stays_of_pathExists hpath hex] at hclimb
      | written path text w₁ store _ hpath hfree hrender hwrite =>
        have htrail : d.trailOf path = trail := by
          by_contra hother
          exact hne (hkeeps.standing (Disk.write_frame hwrite hs (Ne.symm hother)))
        refine ⟨t, rest, path, text, rfl, hpath, by rw [hrender], by rw [hwrite], htrail, ?_⟩
        rintro rfl
        exact hne (hkeeps.standing (htrail ▸ Disk.standing?_write_self hwrite))

/-- Once the output path climbs, the first task writes whatever stands where its path leads, and no
later task changes it. -/
theorem standing?_of_first (hlive : r.dryRun = false) (hforce : r.force = false) (hd : d.IsTree)
    (hclimb : d.climbs r.output = true) {rest : List Task} {path : FilePath} {text : String}
    (hpath : t.path e r.output = .ok path)
    (hrender : ((e.render t.template t.data).on ⟨d, .empty⟩).1 = .ok text)
    (hwrite : (d.write path text.toUTF8).1 = .ok ()) :
    (emit e r (t :: rest) ⟨d, .empty⟩).workspace.store.standing? (d.trailOf path) =
      some (.file text.toUTF8) := by
  have hstep := t.emits_emit e r ⟨d, .empty⟩
  rw [workspace_emit_cons]
  rcases hx : t.emit e r ⟨d, .empty⟩ with ⟨c | outcome, w'⟩ <;> rw [hx] at hstep
  · exfalso
    cases hstep with
    | failed _ _ _ hfail =>
      obtain ⟨f, hf⟩ := hfail path hpath
      simp [hf] at hrender
    | unwritten _ path' text' w₁ p store _ hpath' _ hrender' hwrite' =>
      obtain rfl : path = path' := Except.ok.inj (hpath.symm.trans hpath')
      obtain rfl : text = text' := by simpa [hrender'] using hrender.symm
      cases (congrArg Prod.fst hwrite').symm.trans hwrite
  · have hkeeps := (emit_settled (e := e) hforce (hstep.settles hlive hd) rest).1
    cases hstep with
    | planned _ _ hdry => simp [hlive] at hdry
    | skipped _ _ hpath' hex => simp [Task.stays_of_pathExists hpath' hex] at hclimb
    | written path' text' w₁ store _ hpath' _ hrender' hwrite' =>
      obtain rfl : path = path' := Except.ok.inj (hpath.symm.trans hpath')
      obtain rfl : text = text' := by simpa [hrender'] using hrender.symm
      exact hkeeps.standing (Disk.standing?_write_self hwrite')

/-- After its first task a run without force keeps all files. -/
theorem standing?_after_take (hlive : r.dryRun = false) (hforce : r.force = false)
    (hd : d.IsTree) (tasks : List Task) {n : ℕ} (hn : 0 < n)
    (hs : (emit e r (tasks.take n) ⟨d, .empty⟩).workspace.store.standing? trail =
      some (.file b)) :
    (emit e r tasks ⟨d, .empty⟩).workspace.store.standing? trail = some (.file b) := by
  conv_lhs => rw [← List.take_append_drop n tasks]
  rw [workspace_emit_append]
  split
  · exact hs
  rename_i hdone
  cases tasks with
  | nil => simpa [emit] using hs
  | cons t rest =>
    -- the first task is among those that are carried out
    obtain ⟨n, rfl⟩ := Nat.exists_eq_succ_of_ne_zero hn.ne'
    have hstep := t.emits_emit e r ⟨d, .empty⟩
    rw [List.take_succ_cons] at hs hdone ⊢
    refine (emit_settled (e := e) hforce ?_ _).1.standing hs
    rw [emit] at hdone
    rw [workspace_emit_cons]
    rcases hx : t.emit e r ⟨d, .empty⟩ with ⟨c | outcome, w'⟩ <;> rw [hx] at hstep hdone
    · simp at hdone
    · exact (emit_settled (e := e) hforce (hstep.settles hlive hd) _).2

/-- **What a generation changes.**  A dry run changes nothing.  A run without force changes a file
only if the output path climbs out of a directory that is not there, and then only the one file to
which its first path leads; once the first task is done, it keeps all files. -/
theorem generate_preserves (now : Instant) (r : Request) (backend : Backend) (hd : d.IsTree) :
    (r.dryRun = true → (generate now r d backend).disk = d) ∧
    (r.dryRun = false → r.force = false →
      (∀ trail b, d.standing? trail = some (.file b) →
        ((generate now r d backend).disk.standing? trail ≠ some (.file b) ↔
          d.climbs r.output = true ∧ ∃ path text, r.WritesFirst now d backend path text ∧
            d.trailOf path = trail ∧ text.toUTF8 ≠ b)) ∧
      ∀ e tasks n trail b, r.plan? now d backend = some (e, tasks) → 0 < n →
        (emit e r (tasks.take n) ⟨d, .empty⟩).workspace.store.standing? trail = some (.file b) →
        (generate now r d backend).disk.standing? trail = some (.file b)) := by
  rw [(generate_eq now r d backend).1]
  refine ⟨fun hdry => ?_, fun hlive hforce => ⟨fun trail b hs => ⟨fun hne => ?_, ?_⟩, ?_⟩⟩
  · split
    · exact store_emit_dryRun hdry _ _
    · rfl
  · split at hne
    · rename_i e tasks hplan
      obtain ⟨hclimb, t, rest, path, text, rfl, hpath, hrender, hwrite, htrail, htext⟩ :=
        first_of_changed hlive hforce hd hs hne
      exact ⟨hclimb, path, text, ⟨e, t, rest, hplan, hpath, hrender, hwrite⟩, htrail, htext⟩
    · exact absurd hs hne
  · rintro ⟨hclimb, path, text, ⟨e, t, rest, hplan, hpath, hrender, hwrite⟩, rfl, htext⟩
    rw [hplan, standing?_of_first hlive hforce hd hclimb hpath hrender hwrite]
    simpa using htext
  · rintro e tasks n trail b hplan hn hs
    rw [hplan]
    exact standing?_after_take hlive hforce hd tasks hn hs

/-! ### A directory that is not there -/

/-- A project with one artifact, beside a directory with a file of that name. -/
def keptProject : Disk where
  entries := [(["p".toList], .directory true),
    (["p".toList, "note.ts".toList],
      .file "/** @resource */ export interface Note { id: string; }".toUTF8),
    (["p".toList, "schemaforge.toml".toList],
      .file "[[artifacts]]\ntemplate = \"a\"\noutput = \"a\"\n".toUTF8),
    (["p".toList, "templates".toList], .directory true),
    (["p".toList, "templates".toList, "a".toList], .file "generated".toUTF8),
    (["p".toList, "kept".toList], .directory true),
    (["p".toList, "kept".toList, "a".toList], .file "written by hand".toUTF8)]
  home := ["p".toList]

/-- A request for the directory with the file, by way of a directory that is not there. -/
def keptRequest : Request := { schema := .ofString "note.ts", output := .ofString "fresh/../kept" }

/-- The file that was there is written over, although the request has no force. -/
theorem generate_writes_over : keptRequest.force = false ∧
    keptProject.standing? ["p".toList, "kept".toList, "a".toList] =
      some (.file "written by hand".toUTF8) ∧
    (generate ⟨0⟩ keptRequest keptProject).disk.standing?
      ["p".toList, "kept".toList, "a".toList] = some (.file "generated".toUTF8) := by
  decide +kernel

theorem generate_preserves_kept : keptProject.IsTree ∧
    ∀ trail b, keptProject.standing? trail = some (.file b) →
      ((generate ⟨0⟩ keptRequest keptProject).disk.standing? trail ≠ some (.file b) ↔
        keptProject.climbs keptRequest.output = true ∧
          ∃ path text, keptRequest.WritesFirst ⟨0⟩ keptProject .standard path text ∧
            keptProject.trailOf path = trail ∧ text.toUTF8 ≠ b) := by
  have hd : keptProject.IsTree := by decide +kernel
  exact ⟨hd, ((generate_preserves ⟨0⟩ keptRequest .standard hd).2 rfl rfl).1⟩

end ServiceScaffold.Project
