import Mathlib.Algebra.BigOperators.Group.Finset.Piecewise
import Mathlib.Data.Fintype.Basic
import ServiceScaffold.Proofs.Store.Memory
import ServiceScaffold.Proofs.Template.Interleaving

/-!
# Reads and cached templates

A template is added to the cache when its file has been read, and a file is read only for a template
that is added.  So the number of reads is the number of templates in the cache, whatever engines do
and however much of it fails.

* `Accounts.loadEntry` : loading a template keeps the account of one engine;
* `Accounts.act` : **so does every action**;
* `Action.job_of_notFound` : an action changes nothing if a template is not found;
* `Shared.Accounted.turn`, `Shared.Accounted.turns` : engines that share a cache keep the account of
  all their stores, turn by turn;
* `Shared.reads_eq_size` : **each template in the cache was read once.**
-/

namespace ServiceScaffold.Template

open MemoryStore (InOrder)

variable {ι : Type} {e : Engine} {k : Nat} {w : Workspace MemoryStore}

/-! ### One engine -/

/-- The reads of a store, together with `k` reads of others, have filled a cache with templates of
valid names. -/
structure Accounts (k : Nat) (w : Workspace MemoryStore) : Prop where
  inOrder : InOrder w.store.reads
  reads : w.store.totalReads + k = w.cache.size
  distinct : w.cache.Distinct
  valid {name : String} {t : Loaded} : w.cache.get? name = some t → isValidName name = true

namespace Accounts

/-- A template that is loaded is in the cache already, or is read once and added to it. -/
theorem loadEntry (h : Accounts k w) (e : Engine) (name : String) :
    Accounts k ((e.loadEntry name).on w).2 := by
  rw [Engine.on_loadEntry]
  rcases hget : w.cache.get? name with _ | t
  swap
  · exact h
  rcases hfind : e.find w.store name with f | path
  · exact h
  obtain ⟨hname, -, hfile⟩ := Engine.find_ok hfind
  obtain ⟨text, htext⟩ := Option.isSome_iff_exists.1 hfile
  have hread : FileStore.read w.store path = w.store.read path := rfl
  have htotal := MemoryStore.totalReads_read h.inOrder htext
  have hdistinct := (w.cache.extends_insertIfAbsent name ⟨path, text⟩).distinct h.distinct
  simp only [Cache.insertIfAbsent, hget] at hdistinct
  simp only [hread, MemoryStore.read_of_contents htext] at htotal ⊢
  refine ⟨h.inOrder.put path _, ?_, hdistinct, fun {other t} hother => ?_⟩
  · have hsize := h.reads
    rw [htotal, Cache.size, List.length_append, List.length_singleton]
    rw [Cache.size] at hsize
    omega
  · rw [Cache.get?_add hget] at hother
    split_ifs at hother with heq
    · exact heq ▸ hname
    · exact h.valid hother

theorem insert (h : Accounts k w) (path : FilePath) (text : String) :
    Accounts k { w with store := w.store.insert path text } := { h with }

/-- **What an engine does** adds as many templates to the cache as it reads files. -/
theorem act (h : Accounts k w) (e : Engine) (a : Action) : Accounts k ((a.job e).on w).2 :=
  Action.keeps (fun name _ h => h.loadEntry e name) (fun out text _ _ h => h.insert out text) h

end Accounts

/-! ### Templates that are not found -/

section

variable {σ : Type} [FileStore σ] {e : Engine} {w : Workspace σ} {f : Failure} {name : String}

theorem Loaded.code_of_render {renderer : Renderer} {t : Loaded} {data : Json}
    (h : t.render renderer name data = .error f) : f.code = .templateRender := by
  unfold Loaded.render at h
  split at h
  · cases h
  all_goals
    obtain rfl := Except.error.inj h
    rfl

namespace Engine

theorem loadEntry_of_notFound (h : ((e.loadEntry name).on w).1 = .error f)
    (hf : f.code = .templateNotFound) : ((e.loadEntry name).on w).2 = w := by
  rw [on_loadEntry] at h ⊢
  rcases hget : w.cache.get? name with _ | t
  swap
  · rfl
  rcases hfind : e.find w.store name with g | path
  · rfl
  simp only [hget, hfind] at h ⊢
  rcases hread : FileStore.read w.store path with ⟨p | source, store⟩
  -- a file that is found and cannot be read is another failure
  · rw [hread] at h
    obtain rfl := Except.error.inj h
    cases hf
  · rw [hread] at h
    cases h

theorem render_of_notFound {data : Json} (h : ((e.render name data).on w).1 = .error f)
    (hf : f.code = .templateNotFound) : ((e.render name data).on w).2 = w := by
  rw [on_render] at h ⊢
  rcases hload : ((e.loadEntry name).on w).1 with g | t
  · rw [hload] at h
    obtain rfl := Except.error.inj h
    exact loadEntry_of_notFound hload hf
  · rw [hload] at h
    rw [Loaded.code_of_render h] at hf
    cases hf

/-- Loading templates one after the other does not fail. -/
theorem exists_loadAll (e : Engine) (names : List String) (w : Workspace σ) :
    ∃ n, ((e.loadAll names).on w).1 = .ok n := by
  induction names generalizing w with
  | nil => exact ⟨0, rfl⟩
  | cons name names ih =>
    rw [on_loadAll_cons]
    rcases (e.loadEntry name).on w with ⟨_ | _, w'⟩ <;> obtain ⟨n, hn⟩ := ih w' <;>
      exact ⟨_, congrArg (Except.map _) hn⟩

end Engine

/-- **Where a template is not found**, nothing is changed. -/
theorem Action.job_of_notFound {a : Action} (h : ((a.job e).on w).1 = .error f)
    (hf : f.code = .templateNotFound) : ((a.job e).on w).2 = w := by
  have hmap {α β : Type} {r : Except Failure α} {g : α → β} (hr : r.map g = .error f) :
      r = .error f := by
    rcases r with x | x
    · exact congrArg _ (Except.error.inj hr)
    · cases hr
  cases a with
  | resolve name => rw [job, Job.on_map, Engine.on_resolve]
  | load name =>
    rw [job, Job.on_map, Engine.on_load] at h ⊢
    exact Engine.loadEntry_of_notFound (hmap (hmap h)) hf
  | render name data =>
    rw [job, Job.on_map] at h ⊢
    exact Engine.render_of_notFound (hmap h) hf
  | renderSource name source data => rw [job, Job.on_map, Job.on_ofResult]
  | renderToFile name out data =>
    rw [job, Job.on_map, Engine.on_renderToFile] at h ⊢
    replace h := hmap h
    rcases hon : (e.render name data).on w with ⟨g | text, w'⟩ <;> simp only [hon] at h ⊢
    · obtain rfl := Except.error.inj h
      have hw := Engine.render_of_notFound (congrArg Prod.fst hon) hf
      rwa [hon] at hw
    · rcases hwrite : FileStore.write w'.store out text with ⟨p | _, store⟩ <;>
        simp only [hwrite] at h
      · obtain rfl := Except.error.inj h
        cases hf
      · cases h
  | list dir => rw [job, Job.on_map, Engine.on_list]
  | preload dir =>
    rw [job, Job.on_map, Engine.on_preload] at h ⊢
    rcases hnames : e.namesIn w.store dir with g | names
    · rfl
    · obtain ⟨n, hn⟩ := e.exists_loadAll names w
      simp only [hnames, hn] at h
      cases h

end

/-! ### Several engines -/

/-- What happens to engines on one cache whose files are in memory: one of them acts, or a file is
put into its store. -/
inductive MemoryTurn (ι : Type) where
  | acts (i : ι) (a : Action)
  | inserts (i : ι) (path : FilePath) (text : String)

namespace Shared

variable [DecidableEq ι] {engines : ι → Engine} {s : Shared ι MemoryStore}

/-- One turn. -/
def memoryTurn (engines : ι → Engine) (s : Shared ι MemoryStore) :
    MemoryTurn ι → Shared ι MemoryStore
  | .acts i a => s.step engines i a
  | .inserts i path text => s.leave i ⟨(s.stores i).insert path text, s.cache⟩

/-- One turn after the other. -/
def memoryTurns (engines : ι → Engine) (s : Shared ι MemoryStore) (turns : List (MemoryTurn ι)) :
    Shared ι MemoryStore :=
  turns.foldl (memoryTurn engines) s

theorem stores_leave_self (s : Shared ι MemoryStore) (i : ι) (w : Workspace MemoryStore) :
    (s.leave i w).stores i = w.store := Function.update_self ..

theorem stores_leave_of_ne {i j : ι} (hj : j ≠ i) (w : Workspace MemoryStore) :
    (s.leave i w).stores j = s.stores j := Function.update_of_ne hj ..

theorem leave_workspace (s : Shared ι MemoryStore) (i : ι) : s.leave i (s.workspace i) = s := by
  rw [leave, workspace, Function.update_eq_self]

/-- The reads of all stores have filled the cache. -/
structure Accounted [Fintype ι] (s : Shared ι MemoryStore) : Prop where
  inOrder (i : ι) : InOrder (s.stores i).reads
  reads : ∑ i, (s.stores i).totalReads = s.cache.size
  distinct : s.cache.Distinct
  valid {name : String} {t : Loaded} : s.cache.get? name = some t → isValidName name = true

variable [Fintype ι]

namespace Accounted

omit [DecidableEq ι] in
/-- Nothing was read, and nothing is in the cache. -/
theorem start (hcache : s.cache = .empty) (hreads : ∀ i, (s.stores i).reads = []) :
    s.Accounted where
  inOrder i := by
    rw [hreads i]
    exact List.Pairwise.nil
  reads := by
    rw [hcache, Finset.sum_eq_zero fun i _ => by rw [MemoryStore.totalReads, hreads i]; rfl]
    rfl
  distinct := by
    rw [hcache]
    exact List.nodup_nil
  valid h := by
    rw [hcache] at h
    cases h

/-- An engine that adds as much to the cache as it reads keeps the account. -/
theorem leave (h : s.Accounted) {i : ι} {w : Workspace MemoryStore}
    (hw : ∀ k, Accounts k (s.workspace i) → Accounts k w) : (s.leave i w).Accounted := by
  -- what the other engines have read stays the same
  have hothers := Finset.add_sum_erase Finset.univ (fun j => (s.stores j).totalReads)
    (Finset.mem_univ i)
  have hleft : ∀ j ∈ Finset.univ.erase i,
      ((s.leave i w).stores j).totalReads = (s.stores j).totalReads := by
    intro j hj
    rw [stores_leave_of_ne (Finset.ne_of_mem_erase hj)]
  obtain ⟨hinOrder, hreads, hdistinct, hvalid⟩ :=
    hw _ ⟨h.inOrder i, hothers.trans h.reads, h.distinct, h.valid⟩
  refine ⟨fun j => ?_, ?_, hdistinct, hvalid⟩
  · by_cases hj : j = i
    · subst hj
      rwa [stores_leave_self]
    · rw [stores_leave_of_ne hj]
      exact h.inOrder j
  · rw [← Finset.add_sum_erase _ _ (Finset.mem_univ i), Finset.sum_congr rfl hleft,
      stores_leave_self]
    exact hreads

/-- Every turn keeps the account. -/
theorem turn (h : s.Accounted) (t : MemoryTurn ι) : (s.memoryTurn engines t).Accounted := by
  cases t with
  | acts i a => exact h.leave fun k hk => hk.act (engines i) a
  | inserts i path text => exact h.leave fun k hk => hk.insert path text

theorem turns (h : s.Accounted) (turns : List (MemoryTurn ι)) :
    (s.memoryTurns engines turns).Accounted := by
  induction turns generalizing s with
  | nil => exact h
  | cons t turns ih => exact ih (h.turn t)

end Accounted

/-- **Each template in the cache was read once.**  Engines have started with an empty cache and
with stores that nothing was read from, and have done anything, while files were put into their
stores.  The number of reads of all stores is then the number of templates in the cache, which has
each of them once and under a valid name; and an action that fails since a template is not found
changes neither the cache nor a store. -/
theorem reads_eq_size (hcache : s.cache = .empty) (hreads : ∀ i, (s.stores i).reads = [])
    (turns : List (MemoryTurn ι)) :
    ∑ i, ((s.memoryTurns engines turns).stores i).totalReads =
      (s.memoryTurns engines turns).cache.size ∧
    (s.memoryTurns engines turns).cache.Distinct ∧
    (∀ name, (s.memoryTurns engines turns).cache.contains name = true →
      isValidName name = true) ∧
    ∀ i a f, (s.memoryTurns engines turns).answer engines i a = .error f →
      f.code = .templateNotFound →
      (s.memoryTurns engines turns).step engines i a = s.memoryTurns engines turns := by
  have h : (s.memoryTurns engines turns).Accounted := (Accounted.start hcache hreads).turns turns
  refine ⟨h.reads, h.distinct, fun name hname => ?_, fun i a f hf hcode => ?_⟩
  · obtain ⟨t, ht⟩ := Option.isSome_iff_exists.1 hname
    exact h.valid ht
  · rw [step, Action.job_of_notFound hf hcode]
    exact leave_workspace _ i

end Shared

/-- Two engines, one of which looks in a directory of its own first and renders nothing. -/
def readingEngines (i : Bool) : Engine :=
  ⟨.ofString "t", if i then none else some "express", if i then .standard else fun _ _ _ => .nothing⟩

/-- A template is put into one store and loaded from there; the other engine cannot render it, does
not find another one, and loads that when it is there. -/
def readingTurns : List (MemoryTurn Bool) :=
  [.inserts true (.ofString "t/note.txt.jinja") "for {{ name }}", .acts true (.load "note.txt"),
    .acts false (.render "note.txt" (.obj [])), .acts false (.load "other.txt"),
    .inserts false (.ofString "t/express/other.txt.j2") "", .acts false (.preload "")]

theorem Shared.reads_eq_size_sixTurns :
    ((Shared.mk (fun _ => .empty) .empty).memoryTurns readingEngines readingTurns).cache.names =
      ["express/other.txt", "note.txt"] ∧
    ∑ i, (((Shared.mk (fun _ => .empty) .empty).memoryTurns readingEngines
      readingTurns).stores i).totalReads = 2 :=
  ⟨by decide +kernel, (Shared.reads_eq_size rfl (fun _ => rfl) readingTurns).1.trans
    (by decide +kernel)⟩

end ServiceScaffold.Template
