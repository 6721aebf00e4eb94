import ServiceScaffold.Proofs.Template.Directories
import ServiceScaffold.Proofs.Template.Sharing

/-!
# Where a served template comes from

A cache knows a template by its name alone, but the places where an engine looks for that name
depend on its directories.  On a cache that several engines share, an engine is served what another
one has found, at a place of that other engine.

* `Engine.Finds` : what an engine finds by itself;
* `Engine.Fills` : what an action without a write does to the cache and the files;
* `Action.get?_job` : **what an action brings into the cache, its engine finds**;
* `Shared.origin` : an entry was found by the engine that brought it there, at that time;
* `Shared.servesOwn_iff` : **engines serve templates of their own, whatever happens, if and only if
  they search the same directories.**
-/

namespace ServiceScaffold

/-- A store in which reading changes no file. -/
class SteadyStore (σ : Type) [FileStore σ] : Prop where
  isFile_read (s : σ) (p q : FilePath) :
    FileStore.isFile (FileStore.read s p).2 q = FileStore.isFile s q
  result_read (s : σ) (p q : FilePath) :
    (FileStore.read (FileStore.read s p).2 q).1 = (FileStore.read s q).1

instance : SteadyStore Disk where
  isFile_read _ _ _ := rfl
  result_read _ _ _ := rfl

instance : SteadyStore MemoryStore where
  isFile_read s p q := by
    change ((s.read p).2.contents q).isSome = (s.contents q).isSome
    rw [MemoryStore.contents_read]
  result_read s p q := by
    change ((s.read p).2.read q).1 = (s.read q).1
    rw [MemoryStore.result_read, MemoryStore.result_read, MemoryStore.contents_read]

namespace Template

variable {ι σ : Type} [FileStore σ] {e e' : Engine} {name : String} {t : Loaded}
  {w w' w'' : Workspace σ} {a : Action}

namespace Engine

/-! ### What an engine finds -/

/-- The engine finds the template: it stands at the first candidate at which there is a file. -/
structure Finds (e : Engine) (store : σ) (name : String) (t : Loaded) : Prop where
  first : e.find store name = .ok t.path
  source : (FileStore.read store t.path).1 = .ok t.source

/-- What the engine finds, it loads. -/
theorem Finds.loadEntry (h : e.Finds w.store name t) (hnone : w.cache.get? name = none) :
    ((e.loadEntry name).on w).1 = .ok t := by
  rw [result_loadEntry hnone, h.first]
  simp only [h.source]

/-- An action without a write leaves the files as they are, and brings into the cache what the
engine finds. -/
structure Fills (e : Engine) (w w' : Workspace σ) : Prop where
  isFile (q : FilePath) : FileStore.isFile w'.store q = FileStore.isFile w.store q
  result_read (q : FilePath) : (FileStore.read w'.store q).1 = (FileStore.read w.store q).1
  kept {name : String} {t : Loaded} : w.cache.get? name = some t → w'.cache.get? name = some t
  found {name : String} {t : Loaded} : w'.cache.get? name = some t →
    w.cache.get? name = some t ∨ w.cache.get? name = none ∧ e.Finds w.store name t

namespace Fills

theorem refl (e : Engine) (w : Workspace σ) : e.Fills w w := ⟨fun _ => rfl, fun _ => rfl, id, .inl⟩

theorem finds (h : e.Fills w w') (hfinds : e.Finds w'.store name t) : e.Finds w.store name t := by
  refine ⟨?_, (h.result_read t.path).symm.trans hfinds.source⟩
  rw [← hfinds.first]
  exact find_congr fun _ q _ => (h.isFile q).symm

theorem trans (h : e.Fills w w') (h' : e.Fills w' w'') : e.Fills w w'' where
  isFile q := (h'.isFile q).trans (h.isFile q)
  result_read q := (h'.result_read q).trans (h.result_read q)
  kept hget := h'.kept (h.kept hget)
  found {name t} hget := by
    obtain hget | ⟨hnone, hfinds⟩ := h'.found hget
    · exact h.found hget
    · refine .inr ⟨?_, h.finds hfinds⟩
      -- an entry would have been kept
      rcases hold : w.cache.get? name with _ | x
      · rfl
      · rw [h.kept hold] at hnone
        cases hnone

end Fills

variable [SteadyStore σ]

theorem fills_loadEntry (e : Engine) (name : String) (w : Workspace σ) :
    e.Fills w ((e.loadEntry name).on w).2 := by
  rw [on_loadEntry]
  rcases hcached : w.cache.get? name with _ | x
  · rcases hfind : e.find w.store name with f | path
    · exact .refl e w
    · have hisFile := SteadyStore.isFile_read w.store path
      have hread := SteadyStore.result_read w.store path
      rcases hresult : FileStore.read w.store path with ⟨p | source, store⟩ <;>
        rw [hresult] at hisFile hread <;> simp only [hresult]
      · exact ⟨hisFile, hread, id, .inl⟩
      -- the template comes into the cache, under a name that had none
      · refine ⟨hisFile, hread, fun {other x} hget => ?_, fun {other x} hget => ?_⟩
        · rw [Cache.get?_add hcached, if_neg, hget]
          rintro rfl
          rw [hcached] at hget
          cases hget
        · rw [Cache.get?_add hcached] at hget
          split_ifs at hget with hname
          · obtain rfl := Option.some.inj hget
            subst hname
            exact .inr ⟨hcached, hfind, by rw [hresult]⟩
          · exact .inl hget
  · exact .refl e w

end Engine

/-! ### Actions -/

namespace Action

variable [SteadyStore σ]

theorem fills_job (h : a.output? = none) : e.Fills w ((a.job e).on w).2 :=
  keeps (P := e.Fills w) (fun name w' hw' => hw'.trans (e.fills_loadEntry name w'))
    (fun out _ _ hout => by simp [h] at hout) (.refl e w)

omit [SteadyStore σ] in
/-- Writing a file leaves in the cache what rendering it has brought there. -/
theorem cache_renderToFile (out : FilePath) (data : Json) :
    (((renderToFile name out data).job e).on w).2.cache =
      (((render name data).job e).on w).2.cache := by
  rw [job, job, Job.on_map, Job.on_map, Engine.on_renderToFile]
  rcases (e.render name data).on w with ⟨f | text, w'⟩
  · rfl
  · simp only
    rcases FileStore.write w'.store out text with ⟨_ | _, _⟩ <;> rfl

/-- What is in the cache after an action was there before, or the engine has found it. -/
theorem get?_job (h : ((a.job e).on w).2.cache.get? name = some t) :
    w.cache.get? name = some t ∨ w.cache.get? name = none ∧ e.Finds w.store name t := by
  cases a with
  | renderToFile other out data =>
    rw [cache_renderToFile] at h
    exact (fills_job rfl).found h
  | _ => exact (fills_job rfl).found h

end Action

/-! ### Turns of several engines -/

/-- What happens to engines on one cache: one of them acts, or files change. -/
inductive Turn (ι σ : Type) where
  | acts (i : ι) (a : Action)
  | changes (stores : ι → σ)

namespace Shared

variable [DecidableEq ι] (engines : ι → Engine)

/-- One turn. -/
def turn (s : Shared ι σ) : Turn ι σ → Shared ι σ
  | .acts i a => s.step engines i a
  | .changes stores => { s with stores }

/-- One turn after the other. -/
def after (s : Shared ι σ) (turns : List (Turn ι σ)) : Shared ι σ := turns.foldl (turn engines) s

/-- The template that an engine loads. -/
def Loads (s : Shared ι σ) (i : ι) (name : String) (t : Loaded) : Prop :=
  (((engines i).loadEntry name).on (s.workspace i)).1 = .ok t

/-- What an engine answers comes from a template. -/
structure Serves (s : Shared ι σ) (i : ι) (a : Action) (name : String) (x : Answer) (t : Loaded) :
    Prop where
  loads : s.Loads engines i name t
  loaded : a = .load name → x = .text t.source
  rendered (data : Json) :
    a = .render name data → (t.render (engines i).renderer name data).map .text = .ok x

variable {engines} {s : Shared ι σ} {i : ι} {x : Answer} {turns : List (Turn ι σ)}

omit [DecidableEq ι] in
/-- An action that needs a template and succeeds has loaded it. -/
theorem exists_serves (ha : a.template? = some name) (h : s.answer engines i a = .ok x) :
    ∃ t, s.Serves engines i a name x t := by
  unfold answer at h
  cases a with
  | load n =>
    obtain rfl := Option.some.inj ha
    rw [Action.job, Job.on_map, Engine.on_load] at h
    rcases hload : (((engines i).loadEntry n).on (s.workspace i)).1 with f | t <;> rw [hload] at h
    · cases h
    · obtain rfl := Except.ok.inj h
      exact ⟨t, hload, fun _ => rfl, fun _ hrender => (by cases hrender)⟩
  | render n data =>
    obtain rfl := Option.some.inj ha
    rw [Action.job, Job.on_map, Engine.on_render] at h
    rcases hload : (((engines i).loadEntry n).on (s.workspace i)).1 with f | t <;> rw [hload] at h
    · cases h
    · refine ⟨t, hload, fun hloads => (by cases hloads), fun _ hrender => ?_⟩
      obtain ⟨-, rfl⟩ := Action.render.inj hrender
      exact h
  | renderToFile n out data =>
    obtain rfl := Option.some.inj ha
    rw [Action.job, Job.on_map, Engine.on_renderToFile, Engine.on_render] at h
    rcases hload : (((engines i).loadEntry n).on (s.workspace i)).1 with f | t <;> rw [hload] at h
    · cases h
    · exact ⟨t, hload, fun hloads => (by cases hloads), fun _ hrender => (by cases hrender)⟩
  | _ => cases ha

omit [DecidableEq ι] in
theorem loads_iff_of_cached {present : Loaded} (h : s.cache.get? name = some present) :
    s.Loads engines i name t ↔ present = t := by
  unfold Loads
  rw [Engine.on_loadEntry]
  simp [workspace, h]

omit [DecidableEq ι] in
theorem Loads.answer_load (h : s.Loads engines i name t) :
    s.answer engines i (.load name) = .ok (.text t.source) := by
  unfold answer
  rw [Action.job, Job.on_map, Engine.on_load, h]
  rfl

section

variable [SteadyStore σ]

/-- What a turn brings into the cache, the engine whose turn it is finds. -/
theorem get?_turn {u : Turn ι σ} (h : (s.turn engines u).cache.get? name = some t) :
    s.cache.get? name = some t ∨
      ∃ j a, u = .acts j a ∧ (engines j).Finds (s.stores j) name t := by
  cases u with
  | acts j a =>
    obtain hold | ⟨-, hfinds⟩ := Action.get?_job h
    · exact .inl hold
    · exact .inr ⟨j, a, rfl, hfinds⟩
  | changes stores => exact .inl h

/-- **Where an entry comes from.**  What is in the cache was there at the start, or an engine whose
turn it was has found it, with the files as they were before that turn. -/
theorem origin (h : (s.after engines turns).cache.get? name = some t) :
    s.cache.get? name = some t ∨ ∃ before j a rest, turns = before ++ .acts j a :: rest ∧
      (engines j).Finds ((s.after engines before).stores j) name t := by
  induction turns generalizing s with
  | nil => exact .inl h
  | cons u turns ih =>
    obtain hnow | ⟨before, j, a, rest, rfl, hfinds⟩ := ih h
    · obtain hold | ⟨j, a, rfl, hfinds⟩ := get?_turn hnow
      · exact .inl hold
      · exact .inr ⟨[], j, a, turns, rfl, hfinds⟩
    · exact .inr ⟨u :: before, j, a, rest, rfl, hfinds⟩

omit [DecidableEq ι] [SteadyStore σ] in
/-- What an engine loads is in the cache, or the engine finds it. -/
theorem Loads.cached_or_finds (h : s.Loads engines i name t) :
    s.cache.get? name = some t ∨ (engines i).Finds (s.stores i) name t := by
  rcases hcached : s.cache.get? name with _ | present
  · unfold Loads at h
    rw [Engine.result_loadEntry hcached] at h
    simp only [workspace] at h
    rcases hfind : (engines i).find (s.stores i) name with f | path <;> rw [hfind] at h
    · cases h
    · rcases hread : (FileStore.read (s.stores i) path).1 with p | source <;>
        simp only [hread] at h
      · cases h
      · obtain rfl := Except.ok.inj h
        exact .inr ⟨hfind, hread⟩
  · exact .inl (congrArg some ((loads_iff_of_cached hcached).1 h))

/-- What an engine loads was found by one of the engines, now or at an earlier time. -/
theorem Loads.found (hcache : s.cache = .empty)
    (h : (s.after engines turns).Loads engines i name t) : ∃ before j, before <+: turns ∧
      (engines j).Finds ((s.after engines before).stores j) name t := by
  obtain hcached | hfinds := h.cached_or_finds
  · obtain hstart | ⟨before, j, a, rest, rfl, hfinds⟩ := origin hcached
    · rw [hcache, Cache.get?_empty] at hstart
      cases hstart
    · exact ⟨before, j, List.prefix_append _ _, hfinds⟩
  · exact ⟨turns, i, List.prefix_rfl, hfinds⟩

end

end Shared

/-! ### Engines that serve templates of their own -/

section

variable [DecidableEq ι]

/-- Whatever has been done on a cache that was empty, and whatever has happened to the files: what
an engine answers comes from a template that was read from a place where the engine looks for it. -/
def ServesOwn (engines : ι → Engine) : Prop :=
  ∀ (σ : Type) [FileStore σ] [SteadyStore σ] (s : Shared ι σ) (turns : List (Turn ι σ)),
    s.cache = .empty → ∀ i a name x, a.template? = some name →
      (s.after engines turns).answer engines i a = .ok x →
      ∃ t, (s.after engines turns).Serves engines i a name x t ∧ (engines i).LooksAt name t.path ∧
        ∃ before j, before <+: turns ∧ (engines j).Finds ((s.after engines before).stores j) name t

/-- Whatever has been done on a cache that was empty: if the directory of its framework has always
held the template, an engine answers with one from there. -/
def ServesFramework (engines : ι → Engine) : Prop :=
  ∀ (σ : Type) [FileStore σ] [SteadyStore σ] (s : Shared ι σ) (turns : List (Turn ι σ)),
    s.cache = .empty → ∀ i framework name, (engines i).framework = some framework →
      framework ≠ "" →
      (∀ before, before <+: turns → ∀ j,
        ∃ q ∈ candidates ((engines i).base.join (.ofString framework)) none name,
          FileStore.isFile ((s.after engines before).stores j) q = true) →
      ∀ t, (s.after engines turns).Loads engines i name t →
        t.path ∈ candidates ((engines i).base.join (.ofString framework)) none name

variable {engines : ι → Engine}

/-- Engines that search the same directories serve templates of their own. -/
theorem servesOwn_of_searchesLike (h : ∀ i j, (engines i).SearchesLike (engines j)) :
    ServesOwn engines := by
  intro σ _ _ s turns hcache i a name x ha hx
  obtain ⟨t, hserves⟩ := Shared.exists_serves ha hx
  obtain ⟨before, j, hbefore, hfinds⟩ := hserves.loads.found hcache
  have hplace : t.path ∈ (engines j).candidates name := (Engine.find_ok hfinds.first).2.1
  exact ⟨t, hserves, (Engine.LooksAt.of_mem hplace).of_searchesLike (h j i), before, j, hbefore,
    hfinds⟩

/-- The file at the path only. -/
def fileAt (q : FilePath) : MemoryStore := MemoryStore.empty.insert q ""

theorem contents_fileAt (q p : FilePath) :
    (fileAt q).contents p = if p.same q then some "" else none :=
  MemoryStore.contents_insert .empty q p ""

/-- An engine finds the only file there is, if it looks for the template at its place. -/
theorem Engine.finds_fileAt {q : FilePath} (hname : isValidName name = true)
    (h : e.LooksAt name q) : ∃ t, e.Finds (fileAt q) name t ∧ t.path.same q = true := by
  have hisFile (p : FilePath) : FileStore.isFile (fileAt q) p = p.same q := by
    change ((fileAt q).contents p).isSome = _
    rw [contents_fileAt]
    by_cases hsame : p.same q = true <;> simp [hsame]
  obtain ⟨place, hplace, hsame⟩ := h
  rcases hfirst : (e.candidates name).find? (FileStore.isFile (fileAt q)) with _ | path
  · exact absurd ((hisFile place).trans hsame) (List.find?_eq_none.1 hfirst place hplace)
  · have hpath := (hisFile path).symm.trans (List.find?_some hfirst)
    refine ⟨⟨path, ""⟩, ⟨?_, ?_⟩, hpath⟩
    · rw [Engine.find, if_pos hname, hfirst]
    · change ((fileAt q).read path).1 = _
      rw [MemoryStore.result_read, contents_fileAt, if_pos hpath]

/-- Engines that serve templates of their own search the same directories: what one engine finds in
a directory, the others are served. -/
theorem ServesOwn.searchesLike (h : ServesOwn engines) (i j : ι) :
    (engines i).SearchesLike (engines j) := by
  intro dir hdir
  have hway : [⟨['a']⟩] ∈ waysTo "a".toList := by decide +kernel
  obtain ⟨t, hfinds, hsame⟩ := Engine.finds_fileAt (q := dir.join ⟨['a']⟩) (by decide +kernel)
    (Engine.looksAt_iff.2 ⟨dir, hdir, _, hway, FilePath.same_self _⟩)
  -- one engine loads the template, then the other one does
  let s : Shared ι MemoryStore := ⟨fun _ => fileAt (dir.join ⟨['a']⟩), .empty⟩
  let turns : List (Turn ι MemoryStore) := [.acts i (.load "a")]
  have hcached : (s.after engines turns).cache.get? "a" = some t := by
    have hload := Engine.Finds.loadEntry (w := s.workspace i) hfinds rfl
    change (((Action.load "a").job (engines i)).on (s.workspace i)).2.cache.get? "a" = some t
    rw [Action.job, Job.on_map, Engine.on_load, Engine.get?_loadEntry, if_pos rfl]
    exact hload
  have hserved : (s.after engines turns).Loads engines j "a" t :=
    (Shared.loads_iff_of_cached hcached).2 rfl
  obtain ⟨t', hserves, hlooks, -⟩ :=
    h MemoryStore s turns rfl j (.load "a") "a" (.text t.source) rfl hserved.answer_load
  obtain rfl : t = t' := (Shared.loads_iff_of_cached hcached).1 hserves.loads
  obtain ⟨place, hplace, hsame'⟩ := hlooks
  exact Engine.mem_searchDirs_of_looksAt ⟨place, hplace, FilePath.same_trans hsame' hsame⟩

/-- The candidates in the directory of the framework come first. -/
theorem Engine.prefix_candidates (name : String) {framework : String}
    (hframework : e.framework = some framework)
    (hne : framework ≠ "") :
    Template.candidates (e.base.join (.ofString framework)) none name <+: e.candidates name := by
  have hnone : searchDirs (e.base.join (.ofString framework)) none =
      [e.base.join (.ofString framework)] := rfl
  rw [Engine.candidates, Template.candidates, Template.candidates, hframework,
    searchDirs_some _ hne, hnone, List.flatMap_singleton, List.flatMap_cons, dropRepeated_append]
  exact prefix_dropRepeated _ _

/-- A file in the directory of the framework is found first. -/
theorem Engine.mem_of_find_framework {store : σ} {framework : String} {p : FilePath}
    (hframework : e.framework = some framework) (hne : framework ≠ "")
    (hfile : ∃ q ∈ Template.candidates (e.base.join (.ofString framework)) none name,
      FileStore.isFile store q = true) (hfind : e.find store name = .ok p) :
    p ∈ Template.candidates (e.base.join (.ofString framework)) none name := by
  obtain ⟨rest, hrest⟩ := Engine.prefix_candidates name hframework hne
  rw [Engine.find, if_pos (Engine.find_ok hfind).1, ← hrest, List.find?_append] at hfind
  rcases hfirst : (Template.candidates (e.base.join (.ofString framework)) none name).find?
    (FileStore.isFile store) with _ | q
  · obtain ⟨q, hq, hisFile⟩ := hfile
    exact absurd hisFile (List.find?_eq_none.1 hfirst q hq)
  · rw [hfirst] at hfind
    obtain rfl := Except.ok.inj hfind
    exact List.mem_of_find?_eq_some hfirst

/-- **Engines serve templates of their own if and only if they search the same directories.**  Then
whatever the engines do on their cache, and whatever happens to the files, what an engine answers
comes from a place where it looks for the template itself.  If all of them have one base and one
framework, the templates of the framework come before the general ones. -/
theorem servesOwn_iff (engines : ι → Engine) :
    (ServesOwn engines ↔ ∀ i j, (engines i).SearchesLike (engines j)) ∧
    ((∀ i j, (engines i).base = (engines j).base) →
      (∀ i j, (engines i).framework = (engines j).framework) → ServesFramework engines) := by
  refine ⟨⟨ServesOwn.searchesLike, servesOwn_of_searchesLike⟩, fun hbase hframework => ?_⟩
  intro σ _ _ s turns hcache i framework name hsome hne hfiles t hloads
  obtain ⟨before, j, hbefore, hfinds⟩ := hloads.found hcache
  have hfiles := hfiles before hbefore j
  rw [hbase i j] at hfiles ⊢
  exact Engine.mem_of_find_framework ((hframework i j).symm.trans hsome) hne hfiles hfinds.first

end

/-- A template of the framework and a general one. -/
def serverStart : Shared Bool MemoryStore :=
  ⟨fun _ => (MemoryStore.empty.insert (.ofString "t/server.ts.jinja") "general").insert
    (.ofString "t/express/server.ts.jinja") "express", .empty⟩

/-- Two engines that search the same directories and write them in two ways. -/
def dottedEngines (i : Bool) : Engine :=
  if i then ⟨.ofString "t/", some ".", .standard⟩ else ⟨.ofString "t", none, .standard⟩

/-- Two engines of one framework. -/
def expressEngines (_ : Bool) : Engine := ⟨.ofString "t", some "express", .standard⟩

/-- One of two engines loads the template of the server. -/
def serverTurns : List (Turn Bool MemoryStore) := [.acts true (.load "server.ts")]

theorem servesOwn_iff_dotted :
    (∃ t, (serverStart.after dottedEngines serverTurns).Serves dottedEngines false
        (.load "server.ts") "server.ts" (.text "general") t ∧
      (dottedEngines false).LooksAt "server.ts" t.path) ∧
    ∀ t, (serverStart.after expressEngines serverTurns).Loads expressEngines false "server.ts" t →
      t.path ∈ candidates (.ofString "t/express") none "server.ts" := by
  have hlike : ∀ i j, (dottedEngines i).SearchesLike (dottedEngines j) := by decide +kernel
  have hown := (servesOwn_iff dottedEngines).1.2 hlike MemoryStore serverStart serverTurns rfl
  have hframework := (servesOwn_iff expressEngines).2 (fun _ _ => rfl) (fun _ _ => rfl)
    MemoryStore serverStart serverTurns rfl false "express" "server.ts" rfl (by decide)
  refine ⟨?_, hframework ?_⟩
  · obtain ⟨t, hserves, hlooks, -⟩ :=
      hown false (.load "server.ts") "server.ts" (.text "general") rfl rfl
    exact ⟨t, hserves, hlooks⟩
  · intro before hbefore j
    refine ⟨.ofString "t/express/server.ts.jinja", by decide +kernel, ?_⟩
    obtain rfl | rfl : before = [] ∨ before = serverTurns := by
      simpa [serverTurns, List.prefix_cons_iff] using hbefore
    all_goals cases j <;> decide +kernel

/-- An engine with a framework and one without. -/
def mixedEngines (i : Bool) : Engine :=
  ⟨.ofString "t", if i then some "express" else none, .standard⟩

/-- **A cache hands an engine what another one has found**: after a load of the engine with the
framework, the other one answers with its template, from a place where it does not look. -/
theorem serves_foreign :
    (serverStart.after mixedEngines serverTurns).cache.get? "server.ts" =
      some ⟨.ofString "t/express/server.ts.jinja", "express"⟩ ∧
    (serverStart.after mixedEngines serverTurns).answer mixedEngines false (.load "server.ts") =
      .ok (.text "express") ∧
    ¬(mixedEngines false).LooksAt "server.ts" (.ofString "t/express/server.ts.jinja") ∧
    -- and the other way round
    (serverStart.after mixedEngines [.acts false (.load "server.ts")]).answer mixedEngines true
      (.load "server.ts") = .ok (.text "general") ∧
    serverStart.answer mixedEngines true (.load "server.ts") = .ok (.text "express") ∧
    ¬ServesOwn mixedEngines := by
  refine ⟨by decide +kernel, rfl, ?_, rfl, rfl, ?_⟩
  · unfold Engine.LooksAt
    decide +kernel
  · exact fun h => absurd (h.searchesLike true false) (by decide +kernel)

end Template

end ServiceScaffold
