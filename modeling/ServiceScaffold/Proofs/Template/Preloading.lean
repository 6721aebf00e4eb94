import ServiceScaffold.Proofs.Template.Interleaving

/-!
# What a preload counts

A preload lists the templates of a directory and loads them all at once.  Its answer is made from the
results of the loads, while others look at the cache.  Both tell the same, in whatever order the
loads take their steps: each name is listed once, so that no other load of the preload puts a
template under it.

* `Load.Tells` : what the stage of a load tells of the cache;
* `Preloading.next`, `Preloading.of_leads` : **all loads of a preload tell what is in the cache**, and
  every step of one of them keeps that;
* `Stage.remaining`, `Call.exists_answer` : a preload ends when each load has taken enough steps;
* `Engine.CountsPreload`, `Engine.countsPreload` : **a preload answers with the number of listed
  names that are in the cache then.**
-/

namespace ServiceScaffold.Template

variable {σ : Type}

/-! ### One load -/

namespace Load

/-- What the stage of a load tells of the cache, unless another load has the same name: nothing
before the cache is asked, and from then on, that there is no template until the load has ended with
one. -/
def Tells (c : Cache) (l : Load) : Prop :=
  match l.stage with
  | .asking => True
  | .ended (.ok t) => c.get? l.name = some t
  | _ => c.get? l.name = none

variable [FileStore σ] (e : Engine) {l : Load} {w : Workspace σ}

/-- What a load told of the cache, it tells after its next step. -/
theorem Tells.next (h : l.Tells w.cache) : (l.next e w).1.Tells (l.next e w).2.cache := by
  obtain ⟨name, stage⟩ := l
  rw [Load.next]
  cases stage with
  | asking =>
    rw [Stage.next]
    rcases hget : w.cache.get? name with _ | t
    · by_cases hname : isValidName name = true
      · rw [if_pos hname]
        exact hget
      · rw [if_neg hname]
        exact hget
    · exact hget
  | probing rest =>
    cases rest with
    | nil => exact h
    | cons path rest =>
      rw [Stage.next]
      split_ifs <;> exact h
  | reading path =>
    rw [Stage.next]
    rcases FileStore.read w.store path with ⟨_ | _, _⟩ <;> exact h
  | keeping t => exact w.cache.get?_insertIfAbsent_self name t
  | ended result => exact h

/-- A step of a load changes nothing under other names. -/
theorem get?_next_of_ne {other : String} (h : other ≠ l.name) :
    (l.next e w).2.cache.get? other = w.cache.get? other := by
  rw [next]
  obtain ⟨hcache, -⟩ | ⟨t, -, hcache⟩ := l.stage.next_cases e w l.name
  · rw [hcache]
  · rw [hcache, Cache.get?_insertIfAbsent, if_neg h]

omit [FileStore σ] in
/-- A load that has ended tells its result. -/
theorem Tells.get?_eq {c : Cache} (h : l.Tells c) {result : Except Failure Loaded}
    (hresult : l.result? = some result) : c.get? l.name = result.toOption := by
  rw [Tells, result?_eq_some.1 hresult] at h
  cases result <;> exact h

end Load

/-! ### The loads of a preload -/

/-- The loads of a preload of names that are listed once, which have changed the cache. -/
structure Preloading (names : List String) (before : Cache) (loads : List Load) (now : Cache) :
    Prop where
  names_eq : loads.map Load.name = names
  nodup : names.Nodup
  kept : before.Extends now
  new (name : String) : now.get? name ≠ before.get? name → name ∈ names
  tells : ∀ l ∈ loads, l.Tells now

namespace Preloading

variable {names : List String} {before now : Cache} {loads : List Load}

/-- Loads that have not started tell nothing. -/
theorem start (h : names.Nodup) (c : Cache) : Preloading names c (names.map Load.start) c where
  names_eq := by simp [Load.start, Function.comp_def]
  nodup := h
  kept := .refl c
  new _ hne := absurd rfl hne
  tells l hl := by
    obtain ⟨name, -, rfl⟩ := List.mem_map.1 hl
    trivial

/-- Whichever load takes its next step, the others tell what they told. -/
theorem next [FileStore σ] (e : Engine) {w : Workspace σ}
    (h : Preloading names before loads w.cache) {j : Nat} {l : Load} (hl : loads[j]? = some l) :
    Preloading names before (loads.set j (l.next e w).1) (l.next e w).2.cache := by
  have hname {i : Nat} {l : Load} (hl : loads[i]? = some l) : names[i]? = some l.name := by
    rw [← h.names_eq, List.getElem?_map, hl]
    rfl
  obtain ⟨hlt, hj⟩ := List.getElem?_eq_some_iff.1 (hname hl)
  refine ⟨?_, h.nodup, h.kept.trans (l.extends_next e w), fun name hne => ?_, fun l' hl' => ?_⟩
  · rw [List.map_set, h.names_eq]
    change names.set j l.name = names
    rw [← hj, List.set_getElem_self]
  · by_cases hself : name = l.name
    · exact hself ▸ List.mem_of_getElem? (hname hl)
    · rw [Load.get?_next_of_ne e hself] at hne
      exact h.new name hne
  · obtain ⟨i, hi⟩ := List.getElem?_of_mem hl'
    rw [List.getElem?_set] at hi
    split_ifs at hi with hij
    · obtain rfl := Option.some.inj hi
      exact (h.tells l (List.mem_of_getElem? hl)).next e
    -- another load of the preload has another name
    · have hne : l'.name ≠ l.name := fun heq =>
        hij ((List.getElem?_inj hlt h.nodup).1 (by rw [hname hl, hname hi, heq]))
      have htells := h.tells l' (List.mem_of_getElem? hi)
      unfold Load.Tells at htells ⊢
      rwa [Load.get?_next_of_ne e hne]

/-- However far a preload has come, its loads tell what is in the cache. -/
theorem of_leads [FileStore σ] {e : Engine} {p q : Call × Workspace σ} (hleads : Call.Leads e p q)
    (hp : p.1 = .preload loads) (h : Preloading names before loads p.2.cache) :
    ∃ loads', q.1 = .preload loads' ∧ Preloading names before loads' q.2.cache := by
  induction hleads with
  | refl => exact ⟨loads, hp, h⟩
  | @tail r q _ hstep ih =>
    obtain ⟨loads', hr, h'⟩ := ih
    obtain ⟨j, hj⟩ := hstep
    rw [hr, Call.next] at hj
    rcases hl : loads'[j]? with _ | l <;> rw [hl] at hj <;> obtain rfl := hj
    · exact ⟨loads', rfl, h'⟩
    · exact ⟨_, rfl, h'.next e hl⟩

/-- As many loads have succeeded as names are in the cache. -/
theorem countP_results (h : Preloading names before loads now)
    {results : List (Except Failure Loaded)} (hresults : loads.mapM Load.result? = some results) :
    results.countP (fun result => result.toOption.isSome) = names.countP now.contains := by
  have htells := h.tells
  rw [← h.names_eq]
  clear h
  induction loads generalizing results with
  | nil =>
    obtain rfl := Option.some.inj hresults
    rfl
  | cons l loads ih =>
    simp only [List.mapM_cons, Option.bind_eq_bind, Option.pure_def, Option.bind_eq_some_iff,
      Option.some.injEq] at hresults
    obtain ⟨result, hresult, rest, hrest, rfl⟩ := hresults
    have hself : result.toOption.isSome = now.contains l.name := by
      rw [Cache.contains, (htells l List.mem_cons_self).get?_eq hresult]
    rw [List.map_cons, List.countP_cons, List.countP_cons, hself,
      ih hrest fun l' hl' => htells l' (List.mem_cons_of_mem _ hl')]

end Preloading

/-! ### The end of a preload -/

/-- Number of steps after which a load has ended. -/
def Stage.remaining (e : Engine) (name : String) : Stage → Nat
  | .asking => (e.candidates name).length + 4
  | .probing rest => rest.length + 3
  | .reading _ => 2
  | .keeping _ => 1
  | .ended _ => 0

theorem Stage.remaining_next [FileStore σ] (e : Engine) (name : String) (w : Workspace σ)
    (st : Stage) : (st.next e name w).1.remaining e name ≤ st.remaining e name - 1 := by
  cases st with
  | asking =>
    rw [next]
    rcases w.cache.get? name with _ | t
    · by_cases hname : isValidName name = true <;> simp [hname, remaining]
    · simp [remaining]
  | probing rest =>
    cases rest with
    | nil => simp [next, remaining]
    | cons path rest =>
      rw [next]
      by_cases hfile : FileStore.isFile w.store path = true <;> simp [hfile, remaining]
  | reading path =>
    rw [next]
    rcases FileStore.read w.store path with ⟨_ | _, _⟩ <;> simp [remaining]
  | keeping t => simp [next, remaining]
  | ended result => simp [next, remaining]

theorem Load.exists_result {e : Engine} {l : Load} (h : l.stage.remaining e l.name = 0) :
    ∃ result, l.result? = some result := by
  rw [result?]
  cases hstage : l.stage <;> rw [hstage] at h <;> simp [Stage.remaining] at h ⊢

/-- All loads have results if each has one. -/
theorem Load.exists_results_iff {loads : List Load} :
    (∃ results, loads.mapM result? = some results) ↔
      ∀ l ∈ loads, ∃ result, l.result? = some result := by
  induction loads with
  | nil => simp
  | cons l loads ih =>
    rw [List.forall_mem_cons, ← ih]
    simp [List.mapM_cons, Option.bind_eq_some_iff]

namespace Call

variable [FileStore σ] (e : Engine)

/-- The steps of a call, one after the other, each with the load whose turn it is. -/
def run (p : Call × Workspace σ) (turns : List Nat) : Call × Workspace σ :=
  turns.foldl (fun p j => p.1.next e j p.2) p

theorem leads_run (p : Call × Workspace σ) (turns : List Nat) : Leads e p (run e p turns) := by
  induction turns generalizing p with
  | nil => exact .refl
  | cons j turns ih => exact .head ⟨j, rfl⟩ (ih _)

/-- A load has come as near to its end as it has had turns. -/
theorem remaining_run (loads : List Load) (w : Workspace σ) (turns : List Nat) :
    ∃ loads', (run e (.preload loads, w) turns).1 = .preload loads' ∧
      ∀ i l', loads'[i]? = some l' → ∃ l, loads[i]? = some l ∧
        l'.stage.remaining e l'.name ≤ l.stage.remaining e l.name - turns.count i := by
  induction turns generalizing loads w with
  | nil => exact ⟨loads, rfl, fun i l hl => ⟨l, hl, by simp⟩⟩
  | cons j turns ih =>
    rcases hj : loads[j]? with _ | l₀
    -- nothing happens in a turn of no load
    · obtain ⟨loads', hrun, hrest⟩ := ih loads w
      refine ⟨loads', ?_, fun i l' hl' => ?_⟩
      · rw [← hrun]
        simp [run, next, hj]
      · obtain ⟨l, hl, hremaining⟩ := hrest i l' hl'
        have hij : j ≠ i := by
          rintro rfl
          rw [hj] at hl
          cases hl
        exact ⟨l, hl, by rwa [List.count_cons_of_ne hij]⟩
    · obtain ⟨loads', hrun, hrest⟩ := ih (loads.set j (l₀.next e w).1) (l₀.next e w).2
      refine ⟨loads', ?_, fun i l' hl' => ?_⟩
      · rw [← hrun]
        simp [run, next, hj]
      · obtain ⟨l, hl, hremaining⟩ := hrest i l' hl'
        rw [List.getElem?_set] at hl
        split_ifs at hl with hij
        · subst hij
          obtain rfl := Option.some.inj hl
          refine ⟨l₀, hj, ?_⟩
          have hstep := l₀.stage.remaining_next e l₀.name w
          rw [List.count_cons_self]
          change _ ≤ (l₀.stage.next e l₀.name w).1.remaining e l₀.name - _ at hremaining
          omega
        · exact ⟨l, hl, by rwa [List.count_cons_of_ne hij]⟩

/-- A preload has ended when each load has had as many turns as it needs. -/
theorem exists_answer {loads : List Load} {turns : List Nat} (w : Workspace σ)
    (h : ∀ i l, loads[i]? = some l → l.stage.remaining e l.name ≤ turns.count i) :
    ∃ r, (run e (.preload loads, w) turns).1.answer? e = some r := by
  obtain ⟨loads', hrun, hrest⟩ := remaining_run e loads w turns
  have hended : ∀ l ∈ loads', ∃ result, l.result? = some result := fun l' hl' => by
    obtain ⟨i, hi⟩ := List.getElem?_of_mem hl'
    obtain ⟨l, hl, hremaining⟩ := hrest i l' hi
    have hturns := h i l hl
    exact Load.exists_result (e := e) (by omega)
  obtain ⟨results, hresults⟩ := Load.exists_results_iff.2 hended
  exact ⟨_, by rw [hrun, answer?, hresults]; rfl⟩

end Call

/-! ### What a preload has done -/

/-- The names that were listed, the cache before and after a preload of them, and its answer. -/
structure Preloaded (names : List String) (before after : Cache) (count : Nat) : Prop where
  /-- The names that are in the cache are counted. -/
  count_eq : count = names.countP after.contains
  kept (name : String) (t : Loaded) : before.get? name = some t → after.get? name = some t
  new (name : String) : after.get? name ≠ before.get? name → name ∈ names

theorem Preloading.preloaded {names : List String} {before now : Cache} {loads : List Load}
    (h : Preloading names before loads now) {results : List (Except Failure Loaded)}
    (hresults : loads.mapM Load.result? = some results) :
    Preloaded names before now (results.countP fun result => result.toOption.isSome) :=
  ⟨h.countP_results hresults, fun _ _ hget => h.kept.kept hget, h.new⟩

namespace Engine

variable [FileStore σ] {e : Engine} {dir : String} {w : Workspace σ} {names : List String}

theorem nodup_sortedNames (names : List String) : (sortedNames names).Nodup :=
  (Keyed.sorted_sortedFields _).nodup

theorem nodup_of_list (h : ((e.list dir).on w).1 = .ok names) : names.Nodup := by
  rw [on_list] at h
  change e.namesIn w.store dir = .ok names at h
  unfold namesIn at h
  split at h
  · dsimp only at h
    split at h
    · obtain rfl := Except.ok.inj h
      exact nodup_sortedNames _
    · cases h
  · cases h

theorem next_listing (h : e.namesIn w.store dir = .ok names) (j : Nat) :
    (Request.preload dir).call.next e j w = (.preload (names.map Load.start), w) := by
  rw [Request.call, Call.next, h]

/-- A preload that has ended has counted, and the cache has what its loads have got. -/
theorem preloaded_of_leads (h : ((e.list dir).on w).1 = .ok names) {c : Call} {w' : Workspace σ}
    {r : Except Failure Answer} (hleads : Call.Leads e ((Request.preload dir).call, w) (c, w'))
    (hanswer : c.answer? e = some r) : c.loads.map Load.name = names ∧
      (∃ k, r = .ok (.count k) ∧ Preloaded names w.cache w'.cache k) ∧
      ∀ l ∈ c.loads, ∃ result, l.result? = some result ∧
        w'.cache.get? l.name = result.toOption := by
  obtain hself | ⟨next, ⟨j, hj⟩, hrest⟩ := hleads.cases_head
  -- a preload that has not listed its directory has no answer
  · obtain rfl := (Prod.mk.inj hself).1
    cases hanswer
  · rw [next_listing h] at hj
    subst hj
    obtain ⟨loads, rfl, hpreloading⟩ :=
      Preloading.of_leads hrest rfl (.start (nodup_of_list h) w.cache)
    obtain ⟨results, hresults, rfl⟩ := Option.map_eq_some_iff.1 hanswer
    refine ⟨hpreloading.names_eq, ⟨_, rfl, hpreloading.preloaded hresults⟩, fun l hl => ?_⟩
    obtain ⟨result, hresult⟩ := Load.exists_results_iff.1 ⟨results, hresults⟩ l hl
    exact ⟨result, hresult, (hpreloading.tells l hl).get?_eq hresult⟩

/-- What a preload of listed names answers and leaves, however its loads are interleaved. -/
structure CountsPreload (e : Engine) (dir : String) (w : Workspace σ) (names : List String) :
    Prop where
  /-- A preload that has ended has counted, and the cache has what its loads have got. -/
  counted (c : Call) (w' : Workspace σ) (r : Except Failure Answer) :
    Call.Leads e ((Request.preload dir).call, w) (c, w') → c.answer? e = some r →
      c.loads.map Load.name = names ∧
      (∃ k, r = .ok (.count k) ∧ Preloaded names w.cache w'.cache k) ∧
      ∀ l ∈ c.loads, ∃ result, l.result? = some result ∧
        w'.cache.get? l.name = result.toOption
  /-- After a first step, which lists the names, it ends when each load has had turns enough. -/
  ends (j : Nat) (turns : List Nat) :
    (∀ i name, names[i]? = some name → (e.candidates name).length + 4 ≤ turns.count i) →
      ∃ r, (Call.run e ((Request.preload dir).call, w) (j :: turns)).1.answer? e = some r
  /-- A preload in one go is one of these. -/
  inOneGo : ∃ k c, ((e.preload dir).on w).1 = .ok k ∧
    Preloaded names w.cache ((e.preload dir).on w).2.cache k ∧
    Call.Leads e ((Request.preload dir).call, w) (c, ((e.preload dir).on w).2) ∧
    c.answer? e = some (.ok (.count k))

/-- **A preload answers with the number of listed names that are in the cache then**, whatever was
there before and whatever cannot be read, however its loads are interleaved. -/
theorem countsPreload (h : ((e.list dir).on w).1 = .ok names) : e.CountsPreload dir w names := by
  refine ⟨fun c w' r => preloaded_of_leads h, fun j turns hturns => ?_, ?_⟩
  · have hrun : Call.run e ((Request.preload dir).call, w) (j :: turns) =
        Call.run e (.preload (names.map Load.start), w) turns := by
      rw [Call.run, List.foldl_cons, next_listing h, Call.run]
    rw [hrun]
    refine Call.exists_answer e w fun i l hl => ?_
    rw [List.getElem?_map] at hl
    obtain ⟨name, hname, rfl⟩ := Option.map_eq_some_iff.1 hl
    exact hturns i name hname
  · obtain ⟨c, hleads, hanswer⟩ := Call.leads_job e (.preload dir) w
    rw [Request.action, Action.job, Job.on_map] at hleads hanswer
    obtain ⟨-, ⟨k, hk, hpreloaded⟩, -⟩ := preloaded_of_leads h hleads hanswer
    rw [hk] at hanswer
    refine ⟨k, c, ?_, hpreloaded, hleads, hanswer⟩
    rcases hon : ((e.preload dir).on w).1 with f | n <;> simp only [hon] at hk
    · cases hk
    · obtain rfl := Answer.count.inj (Except.ok.inj hk)
      rfl

/-- Preloading from a disk leaves the disk as it is. -/
theorem store_preload (e : Engine) (dir : String) (w : Workspace Disk) :
    ((e.preload dir).on w).2.store = w.store := by
  rw [on_preload]
  rcases e.namesIn w.store dir with f | names
  · rfl
  · exact loadAll_keeps (P := fun w' => w'.store = w.store)
      (fun name w' h => (store_loadEntry e name w').trans h) names rfl

end Engine

end ServiceScaffold.Template
