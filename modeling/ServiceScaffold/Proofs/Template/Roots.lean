import ServiceScaffold.Proofs.Template.Interleaving
import ServiceScaffold.Proofs.Template.Lookup

/-!
# Lookup stays inside its roots

An engine looks for a template below its base and below the directory of its framework there, and
nowhere else.  A name that leads out of them is refused before any file is asked for.

* `mem_searchDirs` : an engine searches its base, and the directory of its framework there;
* `Engine.Refuses` : the engine answers that no template can have the name, whatever files there are;
* `Stage.asked` : the files that a load asks for from where it has come to;
* `Load.Confined.next` : **a step of a load asks for candidates of a valid name only**;
* `Session.forall_loads_run` : what a load has at its start and keeps with each step, all loads of a
  session have, whatever happens in between;
* `Engine.lookup_confined` : all of this for every base, framework and name.
-/

namespace ServiceScaffold.Template

variable {ι σ : Type}

/-! ### Candidates -/

/-- A searched directory is the base, or that of the framework below the base. -/
theorem mem_searchDirs {base dir : FilePath} {framework : Option String}
    (h : dir ∈ searchDirs base framework) :
    dir = base ∨ ∃ name, framework = some name ∧ name ≠ "" ∧ dir = base.join (.ofString name) := by
  unfold searchDirs at h
  split at h
  · rename_i name
    split_ifs at h with hempty
    · exact .inl (List.mem_singleton.1 h)
    · obtain rfl | hbase := List.mem_cons.1 h
      · exact .inr ⟨name, rfl, by simpa [String.isEmpty_iff] using hempty, rfl⟩
      · exact .inl (List.mem_singleton.1 hbase)
  · exact .inl (List.mem_singleton.1 h)

/-! ### Names that are refused -/

section

variable [FileStore σ]

/-- The engine answers that no template can have the name, and leaves files and cache as they
are. -/
structure Engine.Refuses (e : Engine) (name : String) (w : Workspace σ) : Prop where
  load : (e.load name).on w = (.error (invalidName name), w)
  render (data : Json) : (e.render name data).on w = (.error (invalidName name), w)
  renderToFile (out : FilePath) (data : Json) :
    (e.renderToFile name out data).on w = (.error (invalidName name), w)

variable {e : Engine} {name : String}

theorem Engine.on_resolve_of_invalid (h : isValidName name = false) (w : Workspace σ) :
    (e.resolve name).on w = (.error (invalidName name), w) := by
  rw [on_resolve, Engine.find, h]
  rfl

theorem Engine.refuses (h : isValidName name = false) {w : Workspace σ}
    (hcache : w.cache.get? name = none) : e.Refuses name w := by
  have hentry : (e.loadEntry name).on w = (.error (invalidName name), w) := by
    rw [on_loadEntry, hcache, Engine.find, h]
    rfl
  have hrender (data : Json) : (e.render name data).on w = (.error (invalidName name), w) := by
    rw [on_render, hentry]
    rfl
  refine ⟨?_, hrender, fun out data => ?_⟩
  · rw [on_load, hentry]
    rfl
  · rw [on_renderToFile, hrender]

end

/-! ### Files that are asked for -/

/-- The paths that a load probes or reads, from the stage on that it has come to. -/
def Stage.asked : Stage → List FilePath
  | .probing rest => rest
  | .reading path => [path]
  | _ => []

/-- A load asks for candidates of its name only, and for none if the name is not valid. -/
def Load.Confined (e : Engine) (l : Load) : Prop :=
  ∀ q ∈ l.stage.asked, isValidName l.name = true ∧ q ∈ e.candidates l.name

theorem Load.confined_of_asked {e : Engine} {l : Load} (h : l.stage.asked = []) : l.Confined e := by
  intro q hq
  rw [h] at hq
  cases hq

/-- A load that asks for candidates only does so after its next step, whatever has become of the
files and of the cache. -/
theorem Load.Confined.next [FileStore σ] {e : Engine} {l : Load} (h : l.Confined e)
    (w : Workspace σ) : (l.next e w).1.Confined e := by
  obtain ⟨name, stage⟩ := l
  rw [Load.next]
  cases stage with
  | asking =>
    rw [Stage.next]
    rcases w.cache.get? name with _ | t
    · by_cases hname : isValidName name = true
      · rw [if_pos hname]
        exact fun q hq => ⟨hname, hq⟩
      · rw [if_neg hname]
        exact confined_of_asked rfl
    · exact confined_of_asked rfl
  | probing rest =>
    cases rest with
    | nil => exact confined_of_asked rfl
    | cons path rest =>
      rw [Stage.next]
      split_ifs
      · exact fun q hq => h q (List.mem_singleton.1 hq ▸ List.mem_cons_self)
      · exact fun q hq => h q (List.mem_cons_of_mem _ hq)
  | reading path =>
    rw [Stage.next]
    rcases FileStore.read w.store path with ⟨_ | _, _⟩
    · exact confined_of_asked rfl
    · exact confined_of_asked rfl
  | keeping t => exact confined_of_asked rfl
  | ended result => exact confined_of_asked rfl

namespace Session

variable [FileStore σ] [DecidableEq ι] {engines : ι → Engine} {P : ι → Load → Prop}

/-- What holds of the loads of a session before an event holds of them after it, if it holds of
loads that have not started and every step of a load keeps it. -/
theorem forall_loads_step (hstart : ∀ i l, l.stage = .asking → P i l)
    (hnext : ∀ i l (w : Workspace σ), P i l → P i (l.next (engines i) w).1) {s : Session ι σ}
    (h : ∀ call ∈ s.calls, ∀ l ∈ call.2.loads, P call.1 l) (event : Event ι σ) :
    ∀ call ∈ (s.step engines event).calls, ∀ l ∈ call.2.loads, P call.1 l := by
  cases event with
  | begins i r =>
    intro call hcall l hl
    obtain hold | hnew := List.mem_append.1 hcall
    · exact h call hold l hl
    · obtain rfl := List.mem_singleton.1 hnew
      refine hstart i l ?_
      cases r with
      | preload dir => cases hl
      | _ =>
        obtain rfl := List.mem_singleton.1 hl
        rfl
  | advances k j =>
    rw [step]
    rcases hk : s.calls[k]? with _ | ⟨i, c⟩
    · exact h
    · intro call hcall l hl
      obtain hold | rfl := List.mem_or_eq_of_mem_set hcall
      · exact h call hold l hl
      have hc := h (i, c) (List.mem_of_getElem? hk)
      obtain ⟨-, hloads⟩ | ⟨l', hl', -, hloads⟩ := c.next_cases (engines i) (s.workspace i) j
      · exact (hloads l hl).elim (hc l) (hstart i l)
      · obtain rfl | hold := hloads l hl
        · exact hnext i l' _ (hc l' hl')
        · exact hc l hold
  | changes stores => exact h

/-- What holds of loads that have not started and is kept by every step of a load holds of all loads
of a session that starts without calls. -/
theorem forall_loads_run (hstart : ∀ i l, l.stage = .asking → P i l)
    (hnext : ∀ i l (w : Workspace σ), P i l → P i (l.next (engines i) w).1) {s : Session ι σ}
    (hcalls : s.calls = []) (events : List (Event ι σ)) :
    ∀ call ∈ (s.run engines events).calls, ∀ l ∈ call.2.loads, P call.1 l := by
  suffices hrun : ∀ s : Session ι σ, (∀ call ∈ s.calls, ∀ l ∈ call.2.loads, P call.1 l) →
      ∀ call ∈ (s.run engines events).calls, ∀ l ∈ call.2.loads, P call.1 l from
    hrun s (by simp [hcalls])
  induction events with
  | nil => exact fun s h => h
  | cons event events ih =>
    exact fun s h => ih (s.step engines event) (forall_loads_step hstart hnext h event)

/-- Whatever happens in a session, its loads ask for candidates of valid names only. -/
theorem confined_run {s : Session ι σ} (hcalls : s.calls = []) (events : List (Event ι σ)) :
    ∀ call ∈ (s.run engines events).calls, ∀ l ∈ call.2.loads, l.Confined (engines call.1) :=
  forall_loads_run (P := fun i l => l.Confined (engines i))
    (fun i l hl => Load.confined_of_asked (by rw [hl]; rfl)) (fun i l w h => h.next w) hcalls events

end Session

/-! ### Lookup -/

open FilePath in
/-- **Lookup stays inside its roots.**  The candidates of a valid name go on from the base, or from
the directory of the framework, and stay inside it; no two of them are the same place.  A name that
is not valid is refused, with no template found, whatever files there are, and nothing changes.  And
whatever happens in a session, a load asks for candidates of a valid name, and for no other file. -/
theorem Engine.lookup_confined (e : Engine) (name : String) :
    (isValidName name = true → ∀ q ∈ e.candidates name, IsBelow e.base q ∨
      ∃ dir, e.framework = some dir ∧ dir ≠ "" ∧ IsBelow (e.base.join (.ofString dir)) q) ∧
    (e.candidates name).Pairwise (fun p q => p.components ≠ q.components) ∧
    (invalidName name).code = .templateNotFound ∧
    (isValidName name = false → ∀ (σ : Type) [FileStore σ] (w : Workspace σ),
      (e.resolve name).on w = (.error (invalidName name), w) ∧
        (w.cache.get? name = none → e.Refuses name w)) ∧
    ∀ (ι σ : Type) [DecidableEq ι] [FileStore σ] (engines : ι → Engine) (s : Session ι σ),
      s.calls = [] → ∀ events, ∀ call ∈ (s.run engines events).calls, ∀ l ∈ call.2.loads,
        ∀ q ∈ l.stage.asked, isValidName l.name = true ∧ q ∈ (engines call.1).candidates l.name := by
  refine ⟨fun hname q hq => ?_, pairwise_dropRepeated .nil, rfl, fun hname σ _ w => ?_,
    fun ι σ _ _ engines s hcalls events => Session.confined_run hcalls events⟩
  · obtain ⟨dir, hdir, hbelow⟩ := isBelow_of_mem_candidates hname hq
    obtain rfl | ⟨framework, hframework, hne, rfl⟩ := mem_searchDirs hdir
    · exact .inl hbelow
    · exact .inr ⟨framework, hframework, hne, hbelow⟩
  · exact ⟨on_resolve_of_invalid hname w, refuses hname⟩

/-- An engine with templates of a framework. -/
def expressEngine : Engine := ⟨.ofString "t", some "express", .standard⟩

/-- Dots around a name do no harm, and a step out in the middle of a name is refused. -/
theorem Engine.lookup_confined_express :
    (∀ q ∈ expressEngine.candidates "./.env.", (FilePath.ofString "t").IsBelow q ∨
      ∃ dir, expressEngine.framework = some dir ∧ dir ≠ "" ∧
        ((FilePath.ofString "t").join (.ofString dir)).IsBelow q) ∧
    (expressEngine.load "src/../../key").on ⟨MemoryStore.empty, .empty⟩ =
      (.error (invalidName "src/../../key"), ⟨MemoryStore.empty, .empty⟩) := by
  obtain ⟨hbelow, -⟩ := lookup_confined expressEngine "./.env."
  obtain ⟨-, -, -, hrefused, -⟩ := lookup_confined expressEngine "src/../../key"
  exact ⟨hbelow (by decide), ((hrefused (by decide) MemoryStore _).2 rfl).load⟩

end ServiceScaffold.Template
