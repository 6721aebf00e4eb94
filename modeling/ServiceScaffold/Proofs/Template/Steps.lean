import Mathlib.Logic.Relation
import ServiceScaffold.Proofs.Template.Sharing

/-!
# Calls of an engine, from one wait to the next

A call of an engine waits for files: a load asks the cache, probes its candidates one by one, reads
a file and puts what it has read into the cache, and anything may happen between two of these
steps.

* `Stage.next`, `Call.next` : the next step of a load, and of a call with one or several loads;
* `Call.answer?` : what a call that has ended answers;
* `Load.leads_loadEntry`, `Call.leads_job` : **if nothing comes between its steps**, a load or a
  call does what the engine does in one go.
-/

namespace ServiceScaffold.Template

variable {σ : Type}

/-! ### A load, step by step -/

/-- How far the load of a template has come. -/
inductive Stage where
  /-- The cache is asked next. -/
  | asking
  /-- These candidates are probed next, one after the other. -/
  | probing (rest : List FilePath)
  /-- The file at the path is read next. -/
  | reading (path : FilePath)
  /-- What was read is put into the cache next, unless another template is there. -/
  | keeping (t : Loaded)
  | ended (result : Except Failure Loaded)

/-- The next step of a load. -/
def Stage.next [FileStore σ] (e : Engine) (name : String) (w : Workspace σ) :
    Stage → Stage × Workspace σ
  | .asking =>
    match w.cache.get? name with
    | some t => (.ended (.ok t), w)
    | none =>
      if isValidName name then (.probing (e.candidates name), w)
      else (.ended (.error (Engine.invalidName name)), w)
  | .probing [] => (.ended (.error (Engine.notFound name (e.candidates name))), w)
  | .probing (path :: rest) =>
    if FileStore.isFile w.store path then (.reading path, w) else (.probing rest, w)
  | .reading path =>
    match FileStore.read w.store path with
    | (.error p, store) => (.ended (.error (Engine.unreadable name path p)), { w with store })
    | (.ok source, store) => (.keeping ⟨path, source⟩, { w with store })
  | .keeping t =>
    let (kept, cache) := w.cache.insertIfAbsent name t
    (.ended (.ok kept), { w with cache })
  | .ended result => (.ended result, w)

/-- The load of a template. -/
structure Load where
  name : String
  stage : Stage

namespace Load

/-- A load that has not started. -/
def start (name : String) : Load := ⟨name, .asking⟩

/-- The next step of a load. -/
def next [FileStore σ] (e : Engine) (l : Load) (w : Workspace σ) : Load × Workspace σ :=
  (⟨l.name, (l.stage.next e l.name w).1⟩, (l.stage.next e l.name w).2)

/-- The result of a load that has ended. -/
def result? (l : Load) : Option (Except Failure Loaded) :=
  match l.stage with
  | .ended result => some result
  | _ => none

theorem result?_eq_some {l : Load} {result : Except Failure Loaded} :
    l.result? = some result ↔ l.stage = .ended result := by
  unfold result?
  split <;> simp_all

end Load

/-! ### Calls -/

/-- What an engine is called for. -/
inductive Request where
  | load (name : String)
  | render (name : String) (data : Json)
  | preload (dir : String)

/-- A call under way. -/
inductive Call where
  | load (l : Load)
  | render (l : Load) (data : Json)
  /-- A preload that lists its directory next. -/
  | listing (dir : String)
  /-- A preload of the templates that it has listed. -/
  | preload (loads : List Load)
  /-- A preload that could not list its directory. -/
  | failed (f : Failure)

/-- A call that has just been made. -/
def Request.call : Request → Call
  | .load name => .load (.start name)
  | .render name data => .render (.start name) data
  | .preload dir => .listing dir

namespace Call

/-- The loads of a call. -/
def loads : Call → List Load
  | .load l => [l]
  | .render l _ => [l]
  | .preload loads => loads
  | _ => []

/-- The next step of a call.  A preload has several loads under way, of which one takes a step. -/
def next [FileStore σ] (e : Engine) (j : Nat) (c : Call) (w : Workspace σ) : Call × Workspace σ :=
  match c with
  | .load l => (.load (l.next e w).1, (l.next e w).2)
  | .render l data => (.render (l.next e w).1 data, (l.next e w).2)
  | .listing dir =>
    match e.namesIn w.store dir with
    | .ok names => (.preload (names.map Load.start), w)
    | .error f => (.failed f, w)
  | .preload loads =>
    match loads[j]? with
    | some l => (.preload (loads.set j (l.next e w).1), (l.next e w).2)
    | none => (.preload loads, w)
  | .failed f => (.failed f, w)

/-- What a call that has ended answers. -/
def answer? (e : Engine) : Call → Option (Except Failure Answer)
  | .load l => l.result?.map fun result => result.map fun t => .text t.source
  | .render l data => l.result?.map fun result =>
    (result.bind fun t => t.render e.renderer l.name data).map .text
  | .listing _ => none
  | .preload loads => (loads.mapM Load.result?).map fun results =>
    .ok (.count (results.countP fun result => result.toOption.isSome))
  | .failed f => some (.error f)

end Call

/-! ### Calls that nothing comes between -/

/-- The action that a call carries out. -/
def Request.action : Request → Action
  | .load name => .load name
  | .render name data => .render name data
  | .preload dir => .preload dir

section

variable [FileStore σ]

/-- A load comes from one state to another by steps of its own. -/
def Load.Leads (e : Engine) : Load × Workspace σ → Load × Workspace σ → Prop :=
  Relation.ReflTransGen fun p q => p.1.next e p.2 = q

/-- A call comes from one state to another by steps of its own. -/
def Call.Leads (e : Engine) : Call × Workspace σ → Call × Workspace σ → Prop :=
  Relation.ReflTransGen fun p q => ∃ j, p.1.next e j p.2 = q

variable (e : Engine) (w : Workspace σ)

/-- Probing comes to the first candidate at which a file stands. -/
theorem Load.leads_probing (name : String) (rest : List FilePath) :
    Leads e (⟨name, .probing rest⟩, w)
      (⟨name, match rest.find? (FileStore.isFile w.store) with
        | some path => .reading path
        | none => .ended (.error (Engine.notFound name (e.candidates name)))⟩, w) := by
  induction rest with
  | nil => exact .single rfl
  | cons path rest ih =>
    by_cases hfile : FileStore.isFile w.store path = true
    · rw [List.find?_cons_of_pos hfile]
      refine .single ?_
      simp [next, Stage.next, hfile]
    · rw [List.find?_cons_of_neg hfile]
      refine .head ?_ ih
      simp [next, Stage.next, hfile]

/-- **A load that nothing comes between** does what the engine does in one go. -/
theorem Load.leads_loadEntry (name : String) :
    Leads e (start name, w) (⟨name, .ended ((e.loadEntry name).on w).1⟩,
      ((e.loadEntry name).on w).2) := by
  rw [Engine.on_loadEntry, Engine.find]
  rcases hget : w.cache.get? name with _ | t
  · by_cases hname : isValidName name = true
    · have hfirst : (start name).next e w = (⟨name, .probing (e.candidates name)⟩, w) := by
        simp [start, next, Stage.next, hget, hname]
      refine .head hfirst ((leads_probing e w name (e.candidates name)).trans ?_)
      rw [if_pos hname]
      rcases (e.candidates name).find? (FileStore.isFile w.store) with _ | path
      · exact .refl
      · rcases hread : FileStore.read w.store path with ⟨p | source, store⟩
        · refine .single ?_
          simp [next, Stage.next, hread]
        · have hkeeping : (Load.mk name (.reading path)).next e w =
              (⟨name, .keeping ⟨path, source⟩⟩, { w with store }) := by
            simp [next, Stage.next, hread]
          refine .head hkeeping (.single ?_)
          simp [next, Stage.next, Cache.insertIfAbsent, hget, hread]
    · rw [if_neg hname]
      refine .single ?_
      simp [start, next, Stage.next, hget, hname]
  · refine .single ?_
    simp [start, next, Stage.next, hget]

namespace Call

variable {e} {p q : Load × Workspace σ}

/-- A call that goes on with a load of its own goes as far as the load. -/
theorem leads_of_load (call : Load → Call) (j : Nat)
    (hcall : ∀ l (w : Workspace σ), (call l).next e j w = (call (l.next e w).1, (l.next e w).2))
    (h : Load.Leads e p q) : Leads e (call p.1, p.2) (call q.1, q.2) := by
  refine Relation.ReflTransGen.lift (fun p : Load × Workspace σ => (call p.1, p.2)) ?_ _ _ h
  intro p q hstep
  exact ⟨j, by rw [hcall, hstep]⟩

/-- One of the loads of a preload goes on. -/
theorem leads_of_preload (before after : List Load) (h : Load.Leads e p q) :
    Leads e (.preload (before ++ p.1 :: after), p.2) (.preload (before ++ q.1 :: after), q.2) := by
  refine leads_of_load (fun l => .preload (before ++ l :: after)) before.length ?_ h
  intro l w
  simp [next]

variable (e)

/-- A preload that takes up one name after the other loads what the engine loads in one go. -/
theorem leads_loadAll (names : List String) (done : List Load) (w : Workspace σ) :
    ∃ ended results, Leads e (.preload (done ++ names.map .start), w)
        (.preload (done ++ ended), ((e.loadAll names).on w).2) ∧
      ended.mapM Load.result? = some results ∧
      ((e.loadAll names).on w).1 = .ok (results.countP fun result => result.toOption.isSome) := by
  induction names generalizing done w with
  | nil => exact ⟨[], [], .refl, rfl, rfl⟩
  | cons name names ih =>
    have hfirst := leads_of_preload done (names.map .start) (Load.leads_loadEntry e w name)
    rcases hon : (e.loadEntry name).on w with ⟨result, w'⟩
    rw [hon] at hfirst
    obtain ⟨ended, results, hrest, hresults, hcount⟩ := ih (done ++ [⟨name, .ended result⟩]) w'
    rw [List.append_assoc, List.append_assoc] at hrest
    refine ⟨⟨name, .ended result⟩ :: ended, result :: results, ?_, ?_, ?_⟩
    · rw [Engine.on_loadAll_cons, hon]
      cases result <;> exact hfirst.trans hrest
    · simp [List.mapM_cons, Load.result?, hresults]
    · rw [Engine.on_loadAll_cons, hon]
      cases result <;> simp [hcount, Except.map, Except.toOption, Nat.add_comm]

/-- **A call that nothing comes between** does what the engine does in one go. -/
theorem leads_job (r : Request) (w : Workspace σ) :
    ∃ c, Leads e (r.call, w) (c, ((r.action.job e).on w).2) ∧
      c.answer? e = some ((r.action.job e).on w).1 := by
  cases r with
  | load name =>
    have hload := leads_of_load .load 0 (fun _ _ => rfl) (Load.leads_loadEntry e w name)
    rw [Request.action, Action.job, Job.on_map, Engine.on_load]
    refine ⟨_, hload, ?_⟩
    rcases (e.loadEntry name).on w with ⟨_ | _, _⟩ <;> rfl
  | render name data =>
    have hload := leads_of_load (.render · data) 0 (fun _ _ => rfl) (Load.leads_loadEntry e w name)
    rw [Request.action, Action.job, Job.on_map, Engine.on_render]
    exact ⟨_, hload, rfl⟩
  | preload dir =>
    rw [Request.action, Action.job, Job.on_map, Engine.on_preload]
    rcases hnames : e.namesIn w.store dir with f | names
    · refine ⟨.failed f, .single ⟨0, ?_⟩, rfl⟩
      simp [Request.call, next, hnames]
    · obtain ⟨ended, results, hleads, hresults, hcount⟩ := leads_loadAll e names [] w
      refine ⟨.preload ended, .head ⟨0, ?_⟩ hleads, ?_⟩
      · simp [Request.call, next, hnames]
      · simp [answer?, hresults, hcount, Except.map]

end Call

end

end ServiceScaffold.Template
