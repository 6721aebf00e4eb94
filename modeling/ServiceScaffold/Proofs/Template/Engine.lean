import Mathlib.Data.List.Find
import ServiceScaffold.Proofs.Keyed
import ServiceScaffold.Store.Disk
import ServiceScaffold.Template.Engine

/-!
# Jobs of an engine, step by step

A job passes a workspace from one operation to the next.  Here each operation of an engine is one
equation about its result and the workspace that it leaves.

* `Job.on_bind` : a sequence of jobs stops at the first that fails, with the workspace of that job;
* `Engine.find_congr` : finding asks for files at the candidates only;
* `Engine.on_loadEntry` : a template is taken from the cache, or found, read and kept;
* `Engine.get?_loadEntry` : loading changes what the cache holds under its own name only;
* `Engine.store_render` : rendering from a disk leaves the disk as it is;
* `Engine.on_renderEncodedToFile` : a template is rendered in full before its file is touched.
-/

namespace ServiceScaffold.Template

namespace Cache

variable {c : Cache} {name : String}

theorem get?_empty (name : String) : empty.get? name = none := rfl

/-- Adding a template changes what stands under its own name only. -/
theorem get?_add (h : c.get? name = none) (t : Loaded) (other : String) :
    (⟨c.entries ++ [(name, t)]⟩ : Cache).get? other =
      if other = name then some t else c.get? other := by
  rw [get?, Keyed.lookup_append, ← get?]
  split_ifs with ho
  · subst ho
    simp [h, Keyed.lookup]
  · simp [Keyed.lookup, Ne.symm ho]

/-- Inserting changes what stands under its own name only. -/
theorem get?_insertIfAbsent (c : Cache) (name : String) (t : Loaded) (other : String) :
    (c.insertIfAbsent name t).2.get? other =
      if other = name then some (c.insertIfAbsent name t).1 else c.get? other := by
  unfold insertIfAbsent
  rcases h : c.get? name with _ | present
  · exact get?_add h t other
  · by_cases ho : other = name
    · rw [if_pos ho, ho]
      exact h
    · rw [if_neg ho]

end Cache

namespace Job

variable {σ α β : Type}

theorem on_pure (a : α) (w : Workspace σ) : (pure a : Job σ α).on w = (.ok a, w) := rfl

theorem on_throw (f : Failure) (w : Workspace σ) : (throw f : Job σ α).on w = (.error f, w) := rfl

theorem on_ofResult (r : Except Failure α) (w : Workspace σ) : (ofResult r).on w = (r, w) := rfl

theorem on_get (w : Workspace σ) : (get : Job σ (Workspace σ)).on w = (.ok w, w) := rfl

theorem on_bind (job : Job σ α) (next : α → Job σ β) (w : Workspace σ) :
    (job >>= next).on w =
      match job.on w with
      | (.ok a, w') => (next a).on w'
      | (.error f, w') => (.error f, w') := by
  change ExceptT.bindCont next (job.on w).1 (job.on w).2 = _
  rcases job.on w with ⟨_ | _, _⟩ <;> rfl

theorem on_map (f : α → β) (job : Job σ α) (w : Workspace σ) :
    (f <$> job).on w = ((job.on w).1.map f, (job.on w).2) := by
  rw [map_eq_pure_bind, on_bind]
  rcases job.on w with ⟨_ | _, _⟩ <;> rfl

theorem on_tryCatch (job : Job σ α) (handle : Failure → Job σ α) (w : Workspace σ) :
    (tryCatch job handle).on w =
      match job.on w with
      | (.ok a, w') => (.ok a, w')
      | (.error f, w') => (handle f).on w' := by
  have hrun : (tryCatch job handle).on w = (ExceptT.tryCatch job handle).run w := rfl
  have hbind (next : Except Failure α → StateM (Workspace σ) (Except Failure α)) :
      (ExceptT.run job >>= next) w = next (job.on w).1 (job.on w).2 := rfl
  rw [hrun, ExceptT.tryCatch, ExceptT.run_mk]
  refine (hbind _).trans ?_
  rcases job.on w with ⟨_ | _, _⟩ <;> rfl

theorem on_read [FileStore σ] (path : FilePath) (w : Workspace σ) :
    (read path).on w =
      (.ok (FileStore.read w.store path).1, { w with store := (FileStore.read w.store path).2 }) :=
  rfl

theorem on_write [FileStore σ] (path : FilePath) (text : String) (w : Workspace σ) :
    (write path text).on w = (.ok (FileStore.write w.store path text).1,
      { w with store := (FileStore.write w.store path text).2 }) :=
  rfl

end Job

namespace Engine

variable {σ : Type} [FileStore σ] {e : Engine} {name : String}

/-! ### Finding -/

/-- Finding asks for files at the candidates only. -/
theorem find_congr {store store' : σ}
    (h : isValidName name = true →
      ∀ q ∈ e.candidates name, FileStore.isFile store q = FileStore.isFile store' q) :
    e.find store name = e.find store' name := by
  unfold Engine.find
  split_ifs with hname
  · rw [List.find?_congr (h hname)]
  · rfl

theorem find_ok {store : σ} {path : FilePath} (h : e.find store name = .ok path) :
    isValidName name = true ∧ path ∈ e.candidates name ∧ FileStore.isFile store path = true := by
  unfold Engine.find at h
  split_ifs at h with hname
  split at h
  · rename_i found hfind
    obtain rfl := Except.ok.inj h
    exact ⟨hname, List.mem_of_find?_eq_some hfind, List.find?_some hfind⟩
  · cases h

theorem on_resolve (e : Engine) (name : String) (w : Workspace σ) :
    (e.resolve name).on w = (e.find w.store name, w) := rfl

/-! ### Loading and rendering -/

omit [FileStore σ] in
theorem on_keep (name : String) (t : Loaded) (w : Workspace σ) :
    (keep name t).on w =
      (.ok (w.cache.insertIfAbsent name t).1,
        { w with cache := (w.cache.insertIfAbsent name t).2 }) := rfl

/-- A template is taken from the cache, or found, read and kept. -/
theorem on_loadEntry (e : Engine) (name : String) (w : Workspace σ) :
    (e.loadEntry name).on w =
      match w.cache.get? name with
      | some t => (.ok t, w)
      | none =>
        match e.find w.store name with
        | .error f => (.error f, w)
        | .ok path =>
          match FileStore.read w.store path with
          | (.error p, store) => (.error (unreadable name path p), { w with store })
          | (.ok source, store) =>
            (.ok ⟨path, source⟩, ⟨store, ⟨w.cache.entries ++ [(name, ⟨path, source⟩)]⟩⟩) := by
  rw [loadEntry, Job.on_bind, Job.on_get]
  rcases hc : w.cache.get? name with _ | t
  · simp only [hc]
    rw [Job.on_bind, on_resolve]
    rcases e.find w.store name with f | path
    · rfl
    · simp only
      rw [Job.on_bind, Job.on_read]
      rcases FileStore.read w.store path with ⟨p | source, store⟩
      · exact Job.on_throw _ _
      · simp only
        rw [on_keep, Cache.insertIfAbsent, hc]
  · simp only [hc]
    exact Job.on_pure t w

/-- What is not in the cache comes from its file. -/
theorem result_loadEntry {w : Workspace σ} (h : w.cache.get? name = none) :
    ((e.loadEntry name).on w).1 =
      match e.find w.store name with
      | .error f => .error f
      | .ok path =>
        match (FileStore.read w.store path).1 with
        | .error p => .error (unreadable name path p)
        | .ok source => .ok ⟨path, source⟩ := by
  rw [on_loadEntry, h]
  rcases e.find w.store name with f | path
  · rfl
  · rcases hread : FileStore.read w.store path with ⟨p | source, store⟩ <;> simp only [hread]

/-- Loading changes what the cache holds under its own name only. -/
theorem get?_loadEntry (e : Engine) (name : String) (w : Workspace σ) (other : String)
    (t : Loaded) :
    ((e.loadEntry name).on w).2.cache.get? other = some t ↔
      if other = name then ((e.loadEntry name).on w).1 = .ok t
      else w.cache.get? other = some t := by
  have hkept {r : Except Failure Loaded} (hr : w.cache.get? name = some t ↔ r = .ok t) :
      w.cache.get? other = some t ↔
        if other = name then r = .ok t else w.cache.get? other = some t := by
    split_ifs with ho
    · rw [ho, hr]
    · rfl
  rw [on_loadEntry]
  rcases hcached : w.cache.get? name with _ | x
  · rcases e.find w.store name with f | path
    · exact hkept (by simp [hcached])
    · simp only
      rcases FileStore.read w.store path with ⟨p | source, store⟩
      · exact hkept (by simp [hcached])
      · rw [Cache.get?_add hcached]
        split_ifs <;> simp
  · exact hkept (by simp [hcached])

theorem on_load (e : Engine) (name : String) (w : Workspace σ) :
    (e.load name).on w =
      (((e.loadEntry name).on w).1.map Loaded.source, ((e.loadEntry name).on w).2) := by
  rw [load, Job.on_bind]
  rcases (e.loadEntry name).on w with ⟨_ | _, _⟩ <;> rfl

theorem on_renderEncoded (e : Engine) (name : String) (data : Encoded) (w : Workspace σ) :
    (e.renderEncoded name data).on w =
      (((e.loadEntry name).on w).1.bind fun t => t.renderEncoded e.renderer name data,
        ((e.loadEntry name).on w).2) := by
  rw [renderEncoded, Job.on_bind]
  rcases (e.loadEntry name).on w with ⟨_ | _, _⟩ <;> rfl

theorem on_render (e : Engine) (name : String) (data : Json) (w : Workspace σ) :
    (e.render name data).on w =
      (((e.loadEntry name).on w).1.bind fun t => t.render e.renderer name data,
        ((e.loadEntry name).on w).2) :=
  e.on_renderEncoded name (.ok data) w

/-- A template is rendered in full before its file is touched. -/
theorem on_renderEncodedToFile (e : Engine) (name : String) (out : FilePath) (data : Encoded)
    (w : Workspace σ) :
    (e.renderEncodedToFile name out data).on w =
      match (e.renderEncoded name data).on w with
      | (.error f, w') => (.error f, w')
      | (.ok text, w') =>
        match FileStore.write w'.store out text with
        | (.error p, store) => (.error (unwritable name out p), { w' with store })
        | (.ok _, store) => (.ok (), { w' with store }) := by
  rw [renderEncodedToFile, Job.on_bind]
  rcases (e.renderEncoded name data).on w with ⟨f | text, w'⟩
  · rfl
  · simp only
    rw [Job.on_bind, Job.on_write]
    rcases FileStore.write w'.store out text with ⟨_ | _, _⟩ <;> rfl

theorem on_renderToFile (e : Engine) (name : String) (out : FilePath) (data : Json)
    (w : Workspace σ) :
    (e.renderToFile name out data).on w =
      match (e.render name data).on w with
      | (.error f, w') => (.error f, w')
      | (.ok text, w') =>
        match FileStore.write w'.store out text with
        | (.error p, store) => (.error (unwritable name out p), { w' with store })
        | (.ok _, store) => (.ok (), { w' with store }) :=
  e.on_renderEncodedToFile name out (.ok data) w

theorem on_list (e : Engine) (dir : String) (w : Workspace σ) :
    (e.list dir).on w = (e.namesIn w.store dir, w) := rfl

/-- A template that cannot be loaded is skipped. -/
theorem on_loadAll_cons (e : Engine) (name : String) (names : List String) (w : Workspace σ) :
    (e.loadAll (name :: names)).on w =
      match (e.loadEntry name).on w with
      | (.ok _, w') => (((e.loadAll names).on w').1.map (1 + ·), ((e.loadAll names).on w').2)
      | (.error _, w') =>
        (((e.loadAll names).on w').1.map (0 + ·), ((e.loadAll names).on w').2) := by
  rw [loadAll, Job.on_bind, Job.on_tryCatch, Job.on_bind]
  rcases (e.loadEntry name).on w with ⟨_ | _, w'⟩ <;>
    simp only [Job.on_pure, ← map_eq_pure_bind, Job.on_map]

/-- What every load keeps, a sequence of loads keeps. -/
theorem loadAll_keeps {P : Workspace σ → Prop}
    (hload : ∀ name w, P w → P ((e.loadEntry name).on w).2) (names : List String)
    {w : Workspace σ} (h : P w) : P ((e.loadAll names).on w).2 := by
  induction names generalizing w with
  | nil => exact h
  | cons name names ih =>
    have hname := hload name w h
    rw [on_loadAll_cons]
    rcases hon : (e.loadEntry name).on w with ⟨_ | _, w'⟩ <;> rw [hon] at hname <;> exact ih hname

theorem on_preload (e : Engine) (dir : String) (w : Workspace σ) :
    (e.preload dir).on w =
      match e.namesIn w.store dir with
      | .error f => (.error f, w)
      | .ok names => (e.loadAll names).on w := by
  rw [preload, Job.on_bind, on_list]
  rcases e.namesIn w.store dir with _ | _ <;> rfl

/-! ### On a disk -/

theorem store_loadEntry (e : Engine) (name : String) (w : Workspace Disk) :
    ((e.loadEntry name).on w).2.store = w.store := by
  rw [on_loadEntry]
  split
  · rfl
  · split
    · rfl
    · rename_i path _
      have hread : (FileStore.read w.store path).2 = w.store := rfl
      split <;> simp_all

/-- Rendering from a disk leaves the disk as it is. -/
theorem store_render (e : Engine) (name : String) (data : Json) (w : Workspace Disk) :
    ((e.render name data).on w).2.store = w.store := by
  rw [on_render, store_loadEntry]

end Engine

end ServiceScaffold.Template
