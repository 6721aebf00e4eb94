import ServiceScaffold.Project.Generation
import ServiceScaffold.Proofs.Store.Writing
import ServiceScaffold.Proofs.Template.Engine

/-!
# What a task can do

`Task.emit` has many branches; here they are five (`Task.Emits`), each with what it does to the
disk.  The other statements about tasks and about runs of tasks follow from these.

* `Task.emits_emit` : carrying out a task is one of the five;
* `Task.path_ok` : the path of a task is the output directory joined with a valid name;
* `generate_eq` : a generation is the run of the tasks of its plan (`Request.plan?`), or nothing.
-/

namespace ServiceScaffold.Project

open Template (Engine Workspace isValidName)

variable {e : Engine} {r : Request} {t : Task} {w w' : Workspace Disk} {d : Disk}
  {backend : Backend}

/-! ### One task -/

/-- What carrying out a task can come to. -/
inductive Task.Emits (e : Engine) (r : Request) (t : Task) (w : Workspace Disk) :
    Except Chain Outcome → Workspace Disk → Prop
  /-- The path or the text could not be rendered. -/
  | failed (c : Chain) (w' : Workspace Disk) : w'.store = w.store →
      (∀ path, t.path e r.output = .ok path →
        ∃ f, ((e.render t.template t.data).on w).1 = .error f) →
      Emits e r t w (.error c) w'
  /-- A dry run that rendered the text. -/
  | planned (path : FilePath) (w' : Workspace Disk) : r.dryRun = true → w'.store = w.store →
      Emits e r t w (.ok (.planned path)) w'
  /-- Something was found at the path, and there was no force. -/
  | skipped (path : FilePath) : r.dryRun = false → t.path e r.output = .ok path →
      w.store.pathExists path = true → r.force = false → Emits e r t w (.ok (.skipped path)) w
  /-- The text could not be written. -/
  | unwritten (c : Chain) (path : FilePath) (text : String) (w₁ : Workspace Disk)
      (p : StoreProblem) (store : Disk) : r.dryRun = false → t.path e r.output = .ok path →
      (w.store.pathExists path = false ∨ r.force = true) →
      (e.render t.template t.data).on w = (.ok text, w₁) →
      w.store.write path text.toUTF8 = (.error p, store) →
      Emits e r t w (.error c) ⟨store, w₁.cache⟩
  /-- The text was written. -/
  | written (path : FilePath) (text : String) (w₁ : Workspace Disk) (store : Disk) :
      r.dryRun = false → t.path e r.output = .ok path →
      (w.store.pathExists path = false ∨ r.force = true) →
      (e.render t.template t.data).on w = (.ok text, w₁) →
      w.store.write path text.toUTF8 = (.ok (), store) →
      Emits e r t w (.ok (.written path)) ⟨store, w₁.cache⟩

/-- Carrying out a task is one of the five. -/
theorem Task.emits_emit (e : Engine) (r : Request) (t : Task) (w : Workspace Disk) :
    t.Emits e r w (t.emit e r w).1 (t.emit e r w).2 := by
  unfold Task.emit
  rcases hpath : t.path e r.output with c | path
  · exact .failed _ _ rfl fun path h => by simp [hpath] at h
  have hstore := e.store_render t.template t.data w
  have hfailed : ∀ f w₁, (e.render t.template t.data).on w = (.error f, w₁) → ∀ c,
      t.Emits e r w (.error c) w₁ := fun f w₁ hrender c => by
    rw [hrender] at hstore
    exact .failed c w₁ hstore fun _ _ => ⟨f, by rw [hrender]⟩
  simp only
  -- a dry run renders but does not look at the path
  by_cases hdry : r.dryRun = true
  · rw [if_pos hdry]
    rcases hrender : (e.render t.template t.data).on w with ⟨f | text, w₁⟩
    · exact hfailed f w₁ hrender _
    · rw [hrender] at hstore
      exact .planned path w₁ hdry hstore
  rw [if_neg hdry]
  -- something is found, and there is no force
  by_cases hskip : (w.store.pathExists path && !r.force) = true
  · rw [if_pos hskip]
    obtain ⟨hex, hforce⟩ := Bool.and_eq_true_iff.1 hskip
    exact .skipped path (by simpa using hdry) hpath hex (by simpa using hforce)
  rw [if_neg hskip, Engine.on_renderToFile]
  have hfree : w.store.pathExists path = false ∨ r.force = true := by
    cases hex : w.store.pathExists path <;> cases hf : r.force <;> simp_all
  -- the text is rendered in full before the file is written
  rcases hrender : (e.render t.template t.data).on w with ⟨f | text, w₁⟩
  · exact hfailed f w₁ hrender _
  · rw [hrender] at hstore
    obtain ⟨store₁, cache₁⟩ := w₁
    obtain rfl : store₁ = w.store := hstore
    have hdry' : r.dryRun = false := by simpa using hdry
    rcases hwrite : w.store.write path text.toUTF8 with ⟨p | _, store⟩
    · have hw : FileStore.write w.store path text = (.error p, store) := hwrite
      simp only [hw]
      exact .unwritten _ path text _ p store hdry' hpath hfree hrender hwrite
    · have hw : FileStore.write w.store path text = (.ok (), store) := hwrite
      simp only [hw]
      exact .written path text _ store hdry' hpath hfree hrender hwrite

/-- The path of a task is the directory joined with a valid name. -/
theorem Task.path_ok {directory path : FilePath} (h : t.path e directory = .ok path) :
    ∃ name, isValidName name = true ∧ path = directory.join (.ofString name) := by
  unfold Task.path at h
  rcases hr : e.renderSource ("output path of " ++ t.template) t.output t.data with f | text
  · rw [hr] at h
    cases h
  · rw [hr] at h
    simp only [Chain.ofResult, Except.mapError, bind, Except.bind] at h
    split_ifs at h with hname
    exact ⟨_, hname, (Except.ok.inj h).symm⟩

theorem inner_of_isValidName {name : String} (h : isValidName name = true) :
    (FilePath.ofString name).components.all Component.isInner = true :=
  (Bool.and_eq_true_iff.1 h).2

/-- The path of a task goes on from the output directory and stays inside it. -/
theorem Task.components_path {directory path : FilePath} (h : t.path e directory = .ok path) :
    ∃ more, path.components = directory.components ++ more ∧
      more.all Component.isInner = true := by
  obtain ⟨name, hname, rfl⟩ := Task.path_ok h
  obtain ⟨more, hmore, hinner, -⟩ := directory.components_join_inner (inner_of_isValidName hname)
  exact ⟨more, hmore, hinner⟩

/-! ### Runs -/

/-- The engine and the tasks of a request, if everything that they need can be settled. -/
def Request.plan? (r : Request) (now : Instant) (d : Disk) (backend : Backend := .standard) :
    Option (Engine × List Task) :=
  match Settings.effective d r.settingsFile r.schema backend.toml,
    SchemaFile.extraction d r.schema with
  | .ok settings, .ok found =>
    match Service.ofSchema (r.nameIn settings) found.schema with
    | .ok service => some (r.engine settings backend.renderer, r.tasks now settings service)
    | .error _ => none
  | _, _ => none

/-- A generation is the run of the tasks of its plan, or nothing. -/
theorem generate_eq (now : Instant) (r : Request) (d : Disk) (backend : Backend) :
    (generate now r d backend).disk = (match r.plan? now d backend with
      | some (e, tasks) => (emit e r tasks ⟨d, .empty⟩).workspace.store
      | none => d) ∧
    (generate now r d backend).outcomes = (match r.plan? now d backend with
      | some (e, tasks) => (emit e r tasks ⟨d, .empty⟩).outcomes
      | none => []) := by
  unfold generate Request.plan?
  rcases Settings.effective d r.settingsFile r.schema backend.toml with c | settings
  · exact ⟨rfl, rfl⟩
  rcases SchemaFile.extraction d r.schema with c | found
  · exact ⟨rfl, rfl⟩
  simp only
  rcases Service.ofSchema (r.nameIn settings) found.schema with f | service
  · exact ⟨rfl, rfl⟩
  · exact ⟨rfl, rfl⟩

/-- All tasks of a generation that succeeds are carried out. -/
theorem failure_of_generate {now : Instant} {summary : Summary} {tasks : List Task}
    (hok : (generate now r d backend).result = .ok summary)
    (hplan : r.plan? now d backend = some (e, tasks)) :
    (emit e r tasks ⟨d, .empty⟩).failure = none := by
  unfold generate at hok
  unfold Request.plan? at hplan
  rcases hsettings : Settings.effective d r.settingsFile r.schema backend.toml with c | settings
  · simp [hsettings] at hok
  rcases hfound : SchemaFile.extraction d r.schema with c | found
  · simp [hsettings, hfound] at hok
  simp only [hsettings, hfound] at hok hplan
  rcases hservice : Service.ofSchema (r.nameIn settings) found.schema with f | service
  · simp [hservice] at hok
  · simp only [hservice, Option.some.injEq, Prod.mk.injEq] at hok hplan
    obtain ⟨rfl, rfl⟩ := hplan
    rcases hfailure : (emit (r.engine settings backend.renderer) r (r.tasks now settings service)
        ⟨d, .empty⟩).failure with _ | c
    · rfl
    · simp [hfailure] at hok

theorem workspace_emit_cons (e : Engine) (r : Request) (t : Task) (rest : List Task)
    (w : Workspace Disk) :
    (emit e r (t :: rest) w).workspace =
      match t.emit e r w with
      | (.error _, w') => w'
      | (.ok _, w') => (emit e r rest w').workspace := by
  rw [emit]
  split <;> simp_all

/-- Tasks that follow others start where these end, unless one of these fails. -/
theorem workspace_emit_append (e : Engine) (r : Request) (before after : List Task)
    (w : Workspace Disk) :
    (emit e r (before ++ after) w).workspace =
      match (emit e r before w).failure with
      | some _ => (emit e r before w).workspace
      | none => (emit e r after (emit e r before w).workspace).workspace := by
  induction before generalizing w with
  | nil => rfl
  | cons t rest ih =>
    rw [List.cons_append, emit, emit]
    rcases t.emit e r w with ⟨c | outcome, w'⟩
    · rfl
    · exact ih w'

end ServiceScaffold.Project
