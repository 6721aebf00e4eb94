import ServiceScaffold.Proofs.Store.Memory
import ServiceScaffold.Proofs.Template.Sharing

/-!
# The cache is transparent

An engine answers from the cache what it would answer without one, whatever the engines on the same
cache have done before: an entry is what stood in the file when it was read, and as long as nothing
is written to the places where the template is looked for, it stands there still.

* `Engine.Reflects` : a workspace gives the template of a name as a store in memory holds it;
* `Engine.Reflects.act` : **every action keeps that**, unless it writes to one of these places;
* `Shared.reflects_run` : so does every sequence of actions of all engines;
* `Shared.answer_eq_cold` : **what an engine answers does not depend on the cache.**
-/

namespace ServiceScaffold.Template

variable {ι : Type} {e e' : Engine} {name : String} {d : MemoryStore}
  {w w' : Workspace MemoryStore} {a : Action}

namespace Engine

/-- A workspace gives the template of a name as a store holds it: nothing has changed at the places
where it is looked for, and what the cache has is what an engine without a cache loads. -/
structure Reflects (e : Engine) (name : String) (d : MemoryStore) (w : Workspace MemoryStore) :
    Prop where
  alike {q : FilePath} : q ∈ e.candidates name → w.store.contents q = d.contents q
  cached {t : Loaded} : w.cache.get? name = some t → ((e.loadEntry name).on ⟨d, .empty⟩).1 = .ok t

theorem contents_loadEntry (e : Engine) (name : String) (w : Workspace MemoryStore)
    (q : FilePath) : ((e.loadEntry name).on w).2.store.contents q = w.store.contents q := by
  rw [on_loadEntry]
  split
  · rfl
  · split
    · rfl
    · rename_i path _
      have hread := MemoryStore.contents_read w.store path q
      change (FileStore.read w.store path).2.contents q = _ at hread
      split <;> simp_all

namespace Reflects

/-! ### What an engine answers -/

theorem find (h : e.Reflects name d w) : e.find w.store name = e.find d name := by
  refine find_congr fun _ q hq => ?_
  change (w.store.contents q).isSome = (d.contents q).isSome
  rw [h.alike hq]

/-- Loading gives the template of the store. -/
theorem result_loadEntry (h : e.Reflects name d w) :
    ((e.loadEntry name).on w).1 = ((e.loadEntry name).on ⟨d, .empty⟩).1 := by
  rcases hcached : w.cache.get? name with _ | t
  · rw [Engine.result_loadEntry hcached, Engine.result_loadEntry (Cache.get?_empty name), h.find]
    rcases hfind : e.find d name with f | path
    · rfl
    · have hread : (FileStore.read w.store path).1 = (FileStore.read d path).1 := by
        change (w.store.read path).1 = (d.read path).1
        rw [MemoryStore.result_read, MemoryStore.result_read, h.alike (find_ok hfind).2.1]
      simp only [hread]
  · rw [on_loadEntry, hcached, h.cached hcached]

theorem result_render (h : e.Reflects name d w) (data : Json) :
    ((e.render name data).on w).1 = ((e.render name data).on ⟨d, .empty⟩).1 := by
  rw [on_render, on_render, h.result_loadEntry]

/-- An action that needs the template gives what it would give on the store. -/
theorem answer (h : e.Reflects name d w) (ha : a.template? = some name) :
    ((a.job e).on w).1 = ((a.job e).on ⟨d, .empty⟩).1 := by
  cases a with
  | load n =>
    obtain rfl := Option.some.inj ha
    rw [Action.job, Job.on_map, Job.on_map, on_load, on_load, h.result_loadEntry]
  | render n data =>
    obtain rfl := Option.some.inj ha
    rw [Action.job, Job.on_map, Job.on_map, h.result_render]
  | renderToFile n out data =>
    obtain rfl := Option.some.inj ha
    have hwrite (w : Workspace MemoryStore) : ((e.renderToFile n out data).on w).1 =
        ((e.render n data).on w).1.map fun _ => () := by
      rw [on_renderToFile]
      rcases (e.render n data).on w with ⟨_ | _, _⟩ <;> rfl
    rw [Action.job, Job.on_map, Job.on_map, hwrite, hwrite, h.result_render]
  | _ => cases ha

/-! ### What an engine leaves -/

theorem loadEntry (h : e.Reflects name d w) (other : String) :
    e.Reflects name d ((e.loadEntry other).on w).2 where
  alike hq := by rw [contents_loadEntry, h.alike hq]
  cached hget := by
    rw [get?_loadEntry] at hget
    split_ifs at hget with hname
    · subst hname
      exact h.result_loadEntry.symm.trans hget
    · exact h.cached hget

theorem write (h : e.Reflects name d w) {out : FilePath}
    (hout : ∀ q ∈ e.candidates name, q.same out = false) (text : String) :
    e.Reflects name d { w with store := w.store.insert out text } where
  alike {q} hq := by
    rw [MemoryStore.contents_insert, hout q hq]
    exact h.alike hq
  cached hget := h.cached hget

/-- An action keeps what stands at the places of the template, and in the cache what stands there,
unless it writes to one of these places. -/
theorem act (h : e.Reflects name d w)
    (hout : ∀ out, a.output? = some out → ∀ q ∈ e.candidates name, q.same out = false) :
    e.Reflects name d ((a.job e).on w).2 :=
  Action.keeps (fun other _ h => h.loadEntry other)
    (fun out text _ ha h => h.write (hout out ha) text) h

/-- What is in the cache is the same to an engine that looks for templates at the same places. -/
theorem share (h : e.Reflects name d w) (hbase : e.base = e'.base)
    (hframework : e.framework = e'.framework) (hcache : w.cache = w'.cache)
    (halike : ∀ q ∈ e.candidates name, w'.store.contents q = d.contents q) :
    e'.Reflects name d w' where
  alike {q} hq := by
    refine halike q ?_
    rwa [candidates, hbase, hframework]
  cached {t} hget := by
    have hload := h.cached (hcache ▸ hget)
    obtain ⟨base, framework, renderer⟩ := e
    obtain rfl : base = e'.base := hbase
    obtain rfl : framework = e'.framework := hframework
    exact hload

end Reflects

end Engine

namespace Shared

variable [DecidableEq ι] {engines : ι → Engine} {s : Shared ι MemoryStore}

/-- An action of one engine leaves the template as it is to all of them. -/
theorem reflects_step (hbase : ∀ i j, (engines i).base = (engines j).base)
    (hframework : ∀ i j, (engines i).framework = (engines j).framework) {i : ι}
    (h : ∀ j, (engines j).Reflects name d (s.workspace j))
    (hout : ∀ out, a.output? = some out →
      ∀ q ∈ (engines i).candidates name, q.same out = false) (j : ι) :
    (engines j).Reflects name d ((s.step engines i a).workspace j) := by
  have hact := (h i).act hout
  by_cases hj : j = i
  · subst hj
    refine hact.share rfl rfl rfl fun q hq => ?_
    rw [← hact.alike hq]
    simp [step, leave, workspace]
  · refine hact.share (hbase i j) (hframework i j) rfl fun q hq => ?_
    have hstore : ((s.step engines i a).workspace j).store = s.stores j := by
      simp [step, leave, workspace, hj]
    rw [hstore]
    refine (h j).alike ?_
    rwa [Engine.candidates, ← hbase i j, ← hframework i j]

/-- A sequence of actions leaves the template as it is, if none of them writes to one of the places
where it is looked for. -/
theorem reflects_run (hbase : ∀ i j, (engines i).base = (engines j).base)
    (hframework : ∀ i j, (engines i).framework = (engines j).framework)
    {actions : List (ι × Action)} (h : ∀ j, (engines j).Reflects name d (s.workspace j))
    (hout : ∀ act ∈ actions, ∀ out, act.2.output? = some out →
      ∀ q ∈ (engines act.1).candidates name, q.same out = false) (j : ι) :
    (engines j).Reflects name d ((s.run engines actions).workspace j) := by
  induction actions generalizing s with
  | nil => exact h j
  | cons act actions ih =>
    obtain ⟨hfirst, hrest⟩ := List.forall_mem_cons.1 hout
    exact ih (reflects_step hbase hframework h hfirst) hrest

/-- **What an engine answers does not depend on the cache.**  Engines that look for templates at the
same places and start with the same files and an empty cache have done any actions.  An action that
needs a template then gives what it gives with an empty cache, with the files as they are now or as
they were at the start, provided that nothing was written where this template is looked for. -/
theorem answer_eq_cold (hbase : ∀ i j, (engines i).base = (engines j).base)
    (hframework : ∀ i j, (engines i).framework = (engines j).framework)
    (hfiles : ∀ i j path, (s.stores i).contents path = (s.stores j).contents path)
    (hcache : s.cache = .empty) {done : List (ι × Action)} {i : ι} {a : Action} {name : String}
    (ha : a.template? = some name)
    (hout : ∀ act ∈ done, ∀ out, act.2.output? = some out →
      ∀ q ∈ (engines act.1).candidates name, q.same out = false) :
    (s.run engines done).answer engines i a = (s.run engines done).cold.answer engines i a ∧
      (s.run engines done).answer engines i a = s.answer engines i a := by
  have hstart (j : ι) : (engines j).Reflects name (s.stores i) (s.workspace j) :=
    ⟨fun _ => hfiles j i _, fun hget => by simp [workspace, hcache, Cache.get?_empty] at hget⟩
  have hnow := reflects_run hbase hframework hstart hout i
  have hcold : (engines i).Reflects name (s.stores i) ((s.run engines done).cold.workspace i) :=
    ⟨hnow.alike, fun hget => by simp [cold, workspace, Cache.get?_empty] at hget⟩
  exact ⟨(hnow.answer ha).trans (hcold.answer ha).symm,
    (hnow.answer ha).trans ((hstart i).answer ha).symm⟩

end Shared

/-- Two engines, one of which renders nothing. -/
def twoEngines (i : Bool) : Engine :=
  ⟨.ofString "t", some "express", if i then .standard else fun _ _ _ => .nothing⟩

/-- A template for both of them. -/
def twoStores : Shared Bool MemoryStore :=
  ⟨fun _ => MemoryStore.empty.insert (.ofString "t/note.txt.jinja") "for {{ name }}", .empty⟩

/-- The first engine loads the template and cannot render it, the second writes a file. -/
def twoTurns : List (Bool × Action) :=
  [(false, .preload ""), (false, .render "note.txt" (.obj [])),
    (true, .renderToFile "note.txt" (.ofString "out/note.txt") (.obj []))]

theorem Shared.answer_eq_cold_twoEngines :
    (twoStores.run twoEngines twoTurns).cache.contains "note.txt" = true ∧
    (twoStores.run twoEngines twoTurns).answer twoEngines true
      (.render "note.txt" (.obj [("name", .str "you")])) = .ok (.text "for you") := by
  have hkernel : (twoTurns.all fun act => act.2.output?.toList.all fun out =>
      ((twoEngines act.1).candidates "note.txt").all fun q => !q.same out) = true := by
    decide +kernel
  have hout : ∀ act ∈ twoTurns, ∀ out, act.2.output? = some out →
      ∀ q ∈ (twoEngines act.1).candidates "note.txt", q.same out = false := by
    intro act hact out hsome q hq
    simp only [List.all_eq_true, Bool.not_eq_true'] at hkernel
    exact hkernel act hact out (by simp [hsome]) q hq
  refine ⟨by decide +kernel, ?_⟩
  exact (Shared.answer_eq_cold (fun _ _ => rfl) (fun _ _ => rfl) (fun _ _ _ => rfl) rfl rfl
    hout).2.trans rfl

end ServiceScaffold.Template
