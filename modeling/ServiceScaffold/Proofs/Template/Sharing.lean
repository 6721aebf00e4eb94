import Mathlib.Logic.Function.Basic
import ServiceScaffold.Proofs.Template.Engine

/-!
# Engines that share a cache

Several engines may be handed one cache.  Each of them has files of its own, and what one engine has
loaded the others find in the cache.  Here the engines act one after the other.

* `Action`, `Answer` : what an engine can be asked for, and what it answers;
* `Action.keeps` : **what every load and every write keeps, an action keeps**;
* `Shared` : the files of all engines and their cache;
* `Shared.answer`, `Shared.run` : what an engine answers, and what a sequence of actions leaves.
-/

namespace ServiceScaffold.Template

variable {ι σ : Type}

/-- What an engine is asked for. -/
inductive Action where
  | resolve (name : String)
  | load (name : String)
  | render (name : String) (data : Json)
  | renderSource (name source : String) (data : Json)
  | renderToFile (name : String) (out : FilePath) (data : Json)
  | list (dir : String)
  | preload (dir : String)

/-- What an engine answers. -/
inductive Answer where
  | path (p : FilePath)
  | text (s : String)
  | names (names : List String)
  | count (n : Nat)
  | done
  deriving DecidableEq, Repr

namespace Action

/-- Carries out an action. -/
def job [FileStore σ] (a : Action) (e : Engine) : Job σ Answer :=
  match a with
  | .resolve name => .path <$> e.resolve name
  | .load name => .text <$> e.load name
  | .render name data => .text <$> e.render name data
  | .renderSource name source data => .text <$> Job.ofResult (e.renderSource name source data)
  | .renderToFile name out data => (fun _ => .done) <$> e.renderToFile name out data
  | .list dir => .names <$> e.list dir
  | .preload dir => .count <$> e.preload dir

/-- The name of the one template that an action needs. -/
def template? : Action → Option String
  | .load name => some name
  | .render name _ => some name
  | .renderToFile name _ _ => some name
  | _ => none

/-- The file that an action may write. -/
def output? : Action → Option FilePath
  | .renderToFile _ out _ => some out
  | _ => none

/-- **What every load keeps, and writing the file of an action, the action keeps.** -/
theorem keeps [FileStore σ] {P : Workspace σ → Prop} {a : Action} {e : Engine}
    (hload : ∀ name w, P w → P ((e.loadEntry name).on w).2)
    (hwrite : ∀ out text w, a.output? = some out → P w →
      P { w with store := (FileStore.write w.store out text).2 })
    {w : Workspace σ} (h : P w) : P ((a.job e).on w).2 := by
  have hrender : ∀ name data, P ((e.render name data).on w).2 := by
    intro name data
    rw [Engine.on_render]
    exact hload name w h
  cases a with
  | resolve name =>
    rw [job, Job.on_map]
    exact h
  | load name =>
    rw [job, Job.on_map, Engine.on_load]
    exact hload name w h
  | render name data =>
    rw [job, Job.on_map]
    exact hrender name data
  | renderSource name source data =>
    rw [job, Job.on_map]
    exact h
  | renderToFile name out data =>
    have hrendered := hrender name data
    rw [job, Job.on_map, Engine.on_renderToFile]
    rcases hon : (e.render name data).on w with ⟨f | text, w'⟩ <;> rw [hon] at hrendered
    · exact hrendered
    · have hwritten := hwrite out text w' rfl hrendered
      rcases hwrites : FileStore.write w'.store out text with ⟨_ | _, store⟩ <;>
        rw [hwrites] at hwritten <;> simpa only [hwrites] using hwritten
  | list dir =>
    rw [job, Job.on_map]
    exact h
  | preload dir =>
    rw [job, Job.on_map, Engine.on_preload]
    rcases e.namesIn w.store dir with f | names
    · exact h
    · exact Engine.loadAll_keeps hload names h

end Action

/-- The files of each engine, and the cache of all of them. -/
structure Shared (ι σ : Type) where
  stores : ι → σ
  cache : Cache

namespace Shared

/-- What one of the engines works on. -/
def workspace (s : Shared ι σ) (i : ι) : Workspace σ := ⟨s.stores i, s.cache⟩

/-- One of the engines leaves a workspace. -/
def leave [DecidableEq ι] (s : Shared ι σ) (i : ι) (w : Workspace σ) : Shared ι σ :=
  ⟨Function.update s.stores i w.store, w.cache⟩

/-- The same files with an empty cache. -/
def cold (s : Shared ι σ) : Shared ι σ := { s with cache := .empty }

variable [FileStore σ] (engines : ι → Engine)

/-- What one of the engines answers. -/
def answer (s : Shared ι σ) (i : ι) (a : Action) : Except Failure Answer :=
  ((a.job (engines i)).on (s.workspace i)).1

/-- An action of one of the engines. -/
def step [DecidableEq ι] (s : Shared ι σ) (i : ι) (a : Action) : Shared ι σ :=
  s.leave i ((a.job (engines i)).on (s.workspace i)).2

/-- A sequence of actions, each of one of the engines. -/
def run [DecidableEq ι] (s : Shared ι σ) (actions : List (ι × Action)) : Shared ι σ :=
  actions.foldl (fun s (i, a) => s.step engines i a) s

end Shared

end ServiceScaffold.Template
