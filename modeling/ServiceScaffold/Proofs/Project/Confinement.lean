import ServiceScaffold.Proofs.Project.Tasks
import ServiceScaffold.Proofs.Store.Places
import ServiceScaffold.Proofs.Template.Lookup

/-!
# A generation stays in its output directory

The paths of the tasks come from rendered templates, whatever these give, and a run may stop at any
task.  All that a generation does to the disk are writes to paths that go on from the output
directory and do not leave it.

* `Disk.writeAll` : texts written one after the other, whether they can be written or not;
* `Disk.file_writeAll` : every file is as it was, or is one that was written;
* `Task.Emits.exists_write` : **what carrying out a task writes goes on from the output
  directory**, whether it fails or not;
* `emit_exists_writes` : so does what a run writes, up to the task at which it stops;
* `generate_confined` : so does all that a generation changes.
-/

namespace ServiceScaffold

namespace Disk

variable {d : Disk} {t : Trail} {b : ByteArray}

/-- Writes texts one after the other, whether they can be written or not. -/
def writeAll (d : Disk) (writes : List (FilePath × String)) : Disk :=
  writes.foldl (fun d x => (d.write x.1 x.2.toUTF8).2) d

theorem writeAll_append (d : Disk) (before after : List (FilePath × String)) :
    d.writeAll (before ++ after) = (d.writeAll before).writeAll after := List.foldl_append

theorem kinds_write (d : Disk) (p : FilePath) (b : ByteArray) : d.KeepsKinds (d.write p b).2 := by
  rcases h : d.write p b with ⟨x | _, d'⟩
  · exact (write_error h).kinds
  · exact write_kinds h

/-- After a write, every file is as it was, or is the one that was written. -/
theorem file_write {p : FilePath} {written : ByteArray}
    (h : (d.write p written).2.standing? t = some (.file b)) :
    d.standing? t = some (.file b) ∨ d.trailOf p = t ∧ written = b := by
  rcases hwrite : d.write p written with ⟨x | _, d'⟩ <;> rw [hwrite] at h
  · obtain hold | ⟨hdirectory, -⟩ := (write_error hwrite).made h
    · exact .inl hold
    · cases hdirectory
  · obtain ⟨mid, hgrows, -, hdir, -, rfl⟩ := write_ok hwrite
    rw [standing?_put mid (ne_nil_of_not_hasDirectory hdir)] at h
    split_ifs at h with hself
    · exact .inr ⟨hself.symm, by simpa using h⟩
    · obtain hold | ⟨hdirectory, -⟩ := hgrows.made h
      · exact .inl hold
      · cases hdirectory

/-- After writes, every file is as it was, or is one of those that were written. -/
theorem file_writeAll {writes : List (FilePath × String)}
    (h : (d.writeAll writes).standing? t = some (.file b)) :
    d.standing? t = some (.file b) ∨ ∃ x ∈ writes, d.trailOf x.1 = t ∧ x.2.toUTF8 = b := by
  induction writes generalizing d with
  | nil => exact .inl h
  | cons x writes ih =>
    have hkinds := kinds_write d x.1 x.2.toUTF8
    obtain hmid | ⟨y, hy, htrail, htext⟩ := ih h
    · exact (file_write hmid).imp_right fun hx => ⟨x, List.mem_cons_self, hx⟩
    · rw [hkinds.trailOf] at htrail
      exact .inr ⟨y, List.mem_cons_of_mem _ hy, htrail, htext⟩

end Disk

namespace Project

open Template (Engine Workspace isValidName)

variable {e : Engine} {r : Request} {t : Task} {w w' : Workspace Disk} {d : Disk}

/-- What carrying out a task writes goes on from the output directory, whether it can be written or
not. -/
theorem Task.Emits.exists_write {x : Except Chain Outcome} (h : t.Emits e r w x w') :
    ∃ write : Option (FilePath × String), w'.store = w.store.writeAll write.toList ∧
      (∀ y ∈ write.toList, r.output.IsBelow y.1) ∧
      ∀ outcome, x = .ok outcome → outcome.written? = write.map Prod.fst := by
  cases h with
  | failed c _ hstore => exact ⟨none, hstore, nofun, nofun⟩
  | planned path _ _ hstore =>
    refine ⟨none, hstore, nofun, fun outcome hx => ?_⟩
    obtain rfl := Except.ok.inj hx
    rfl
  | skipped path =>
    refine ⟨none, rfl, nofun, fun outcome hx => ?_⟩
    obtain rfl := Except.ok.inj hx
    rfl
  -- a file that cannot be written may leave directories above it
  | unwritten c path text w₁ p store _ hpath _ _ hwrite =>
    have hbelow : r.output.IsBelow path := Task.components_path hpath
    exact ⟨some (path, text), (congrArg Prod.snd hwrite).symm, by simpa using hbelow, nofun⟩
  | written path text w₁ store _ hpath _ _ hwrite =>
    have hbelow : r.output.IsBelow path := Task.components_path hpath
    refine ⟨some (path, text), (congrArg Prod.snd hwrite).symm, by simpa using hbelow, ?_⟩
    intro outcome hx
    obtain rfl := Except.ok.inj hx
    rfl

/-- What tasks write goes on from the output directory, up to the task that fails. -/
theorem emit_exists_writes (e : Engine) (r : Request) (tasks : List Task) (w : Workspace Disk) :
    ∃ writes, (emit e r tasks w).workspace.store = w.store.writeAll writes ∧
      (∀ y ∈ writes, r.output.IsBelow y.1) ∧
      ∃ last : Option FilePath, writes.map Prod.fst =
        (emit e r tasks w).outcomes.filterMap Outcome.written? ++ last.toList := by
  induction tasks generalizing w with
  | nil => exact ⟨[], rfl, nofun, none, rfl⟩
  | cons t rest ih =>
    obtain ⟨write, hstore, hbelow, hwritten⟩ := (t.emits_emit e r w).exists_write
    rw [emit]
    rcases hx : t.emit e r w with ⟨c | outcome, w'⟩ <;> rw [hx] at hstore hwritten
    · exact ⟨write.toList, hstore, hbelow, write.map Prod.fst, by cases write <;> rfl⟩
    · obtain ⟨later, hlater, hbelow', last, hlast⟩ := ih w'
      refine ⟨write.toList ++ later, ?_, List.forall_mem_append.2 ⟨hbelow, hbelow'⟩, last, ?_⟩
      · rw [Disk.writeAll_append, ← hstore]
        exact hlater
      · rw [List.map_append, hlast, List.filterMap_cons, hwritten outcome rfl]
        cases write <;> rfl

/-- **A generation stays in its output directory.**  Whatever the schema, the settings and the
templates are, however they are read and rendered, and whether the run succeeds or fails, what it
does to the disk are writes to paths that go on from the output directory by names and dots only.
These are the files that it lists as written, and at most one more.  Every file that was not there
before, or not with this content, is one of them and lies in the output directory. -/
theorem generate_confined (now : Instant) (r : Request) (d : Disk) (backend : Backend) :
    ∃ writes, (generate now r d backend).disk = d.writeAll writes ∧
      (∀ y ∈ writes, ∃ more, y.1.components = r.output.components ++ more ∧
        more.all Component.isInner = true) ∧
      (∃ last : Option FilePath,
        writes.map Prod.fst = (generate now r d backend).written ++ last.toList) ∧
      ∀ trail b, (generate now r d backend).disk.standing? trail = some (.file b) →
        d.standing? trail ≠ some (.file b) →
        d.trailOf r.output <+: trail ∧ ∃ y ∈ writes, d.trailOf y.1 = trail ∧ y.2.toUTF8 = b := by
  have hwrites : ∃ writes, (generate now r d backend).disk = d.writeAll writes ∧
      (∀ y ∈ writes, r.output.IsBelow y.1) ∧ ∃ last : Option FilePath,
        writes.map Prod.fst = (generate now r d backend).written ++ last.toList := by
    rw [Generation.written, (generate_eq now r d backend).1, (generate_eq now r d backend).2]
    rcases r.plan? now d backend with _ | ⟨e, tasks⟩
    · exact ⟨[], rfl, nofun, none, rfl⟩
    · exact emit_exists_writes e r tasks ⟨d, .empty⟩
  obtain ⟨writes, hdisk, hbelow, hlast⟩ := hwrites
  refine ⟨writes, hdisk, hbelow, hlast, fun trail b hs hnew => ?_⟩
  rw [hdisk] at hs
  obtain ⟨y, hy, htrail, htext⟩ := (Disk.file_writeAll hs).resolve_left hnew
  obtain ⟨more, hmore, hinner⟩ := hbelow y hy
  refine ⟨?_, y, hy, htrail, htext⟩
  rw [← htrail, Disk.trailOf_of_components hmore hinner]
  exact List.prefix_append _ _

/-- A project with an artifact in a directory of the output, and one that leaves the output. -/
def climbingProject : Disk where
  entries := [(["p".toList], .directory true),
    (["p".toList, "note.ts".toList],
      .file "/** @resource */ export interface Note { id: string; }".toUTF8),
    (["p".toList, "schemaforge.toml".toList],
      .file ("[[artifacts]]\ntemplate = \"a\"\noutput = \" ./sub//a \"\n" ++
        "[[artifacts]]\ntemplate = \"a\"\noutput = \"sub/../a\"\n").toUTF8),
    (["p".toList, "templates".toList], .directory true),
    (["p".toList, "templates".toList, "a".toList], .file "generated".toUTF8)]
  home := ["p".toList]

/-- A request for a directory that is not there. -/
def climbingRequest : Request := { schema := .ofString "note.ts", output := .ofString "out" }

/-- The first file is written, at a path of names and dots; the second one is refused. -/
theorem generate_confined_climbing :
    (generate ⟨0⟩ climbingRequest climbingProject).result.toOption = none ∧
    (generate ⟨0⟩ climbingRequest climbingProject).written = [.ofString "out/./sub//a"] ∧
    (generate ⟨0⟩ climbingRequest climbingProject).disk.standing?
      (["p", "out", "sub", "a"].map String.toList) = some (.file "generated".toUTF8) ∧
    climbingProject.trailOf climbingRequest.output <+:
      ["p", "out", "sub", "a"].map String.toList := by
  have hrun : (fun g : Generation => (g.result.toOption, g.written,
      g.disk.standing? (["p", "out", "sub", "a"].map String.toList)))
        (generate ⟨0⟩ climbingRequest climbingProject) =
      (none, [.ofString "out/./sub//a"], some (.file "generated".toUTF8)) := by
    decide +kernel
  obtain ⟨hresult, hwritten, hnew⟩ := by simpa only [Prod.mk.injEq] using hrun
  obtain ⟨_, _, _, _, hfiles⟩ := generate_confined ⟨0⟩ climbingRequest climbingProject .standard
  exact ⟨hresult, hwritten, hnew, (hfiles _ _ hnew (by decide +kernel)).1⟩

end Project

end ServiceScaffold
