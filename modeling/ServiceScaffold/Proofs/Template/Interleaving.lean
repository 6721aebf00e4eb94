import ServiceScaffold.Proofs.Template.Steps
import ServiceScaffold.Store.Memory

/-!
# Interleaved loads agree

Several loads of one name may find nothing in the cache, come to different files and read different
texts.  What they all use is what came first into the cache, since a load keeps the entry that is
there.

* `Session.run` : calls of several engines, interleaved in any order, while files change;
* `Session.extends_run` : entries of the cache are never replaced or removed;
* `Load.Agrees.next`, `Session.Agrees.step` : **a load that has succeeded has what the cache holds**
  under its name, and every event keeps that;
* `Session.loads_agree` : whatever has happened, all loads of a name use the one entry of that name.
-/

namespace ServiceScaffold.Template

variable {ι σ : Type}

/-! ### The cache -/

namespace Cache

/-- Each name stands once. -/
def Distinct (c : Cache) : Prop := (Keyed.keys c.entries).Nodup

/-- What a cache may become: no entry is replaced or removed, and names still stand once. -/
structure Extends (c c' : Cache) : Prop where
  kept {name : String} {t : Loaded} : c.get? name = some t → c'.get? name = some t
  distinct : c.Distinct → c'.Distinct

variable {c c' c'' : Cache} {name : String} {t : Loaded}

theorem Extends.refl (c : Cache) : c.Extends c := ⟨id, id⟩

theorem Extends.trans (h : c.Extends c') (h' : c'.Extends c'') : c.Extends c'' :=
  ⟨fun hget => h'.kept (h.kept hget), fun hdistinct => h'.distinct (h.distinct hdistinct)⟩

theorem get?_insertIfAbsent_self (c : Cache) (name : String) (t : Loaded) :
    (c.insertIfAbsent name t).2.get? name = some (c.insertIfAbsent name t).1 := by
  rw [get?_insertIfAbsent, if_pos rfl]

/-- Inserting neither replaces nor removes, and puts no second entry under a name. -/
theorem extends_insertIfAbsent (c : Cache) (name : String) (t : Loaded) :
    c.Extends (c.insertIfAbsent name t).2 where
  kept {other x} hx := by
    rw [get?_insertIfAbsent]
    split_ifs with hname
    · subst hname
      rw [insertIfAbsent, hx]
    · exact hx
  distinct h := by
    unfold Cache.insertIfAbsent
    rcases hname : c.get? name with _ | x
    · have hkey : name ∉ Keyed.keys c.entries := by
        rw [← Keyed.lookup_isSome, ← get?, hname]
        exact Bool.false_ne_true
      have hkeys : Keyed.keys (c.entries ++ [(name, t)]) = (Keyed.keys c.entries).concat name := by
        simp [Keyed.keys]
      rw [Distinct, hkeys]
      exact h.concat hkey
    · exact h

theorem Distinct.filter_entries (h : c.Distinct) (hget : c.get? name = some t) :
    c.entries.filter (·.1 == name) = [(name, t)] :=
  Keyed.filter_of_lookup h hget

end Cache

/-! ### Sessions -/

/-- Engines at work on one cache, with the calls that have been made of each. -/
structure Session (ι σ : Type) extends Shared ι σ where
  calls : List (ι × Call)

/-- What happens in a session. -/
inductive Event (ι σ : Type) where
  /-- A call is made. -/
  | begins (i : ι) (r : Request)
  /-- A call takes its next step, with one of its loads. -/
  | advances (k j : Nat)
  /-- Files change. -/
  | changes (stores : ι → σ)

namespace Session

variable [FileStore σ] [DecidableEq ι] (engines : ι → Engine)

/-- One event. -/
def step (s : Session ι σ) : Event ι σ → Session ι σ
  | .begins i r => { s with calls := s.calls ++ [(i, r.call)] }
  | .advances k j =>
    match s.calls[k]? with
    | some (i, c) =>
      let (c', w) := c.next (engines i) j (s.workspace i)
      { s.leave i w with calls := s.calls.set k (i, c') }
    | none => s
  | .changes stores => { s with stores }

/-- One event after the other. -/
def run (s : Session ι σ) (events : List (Event ι σ)) : Session ι σ :=
  events.foldl (step engines) s

end Session

/-! ### What a step keeps -/

/-- If the load has succeeded, its template is in the cache. -/
def Load.Agrees (c : Cache) (l : Load) : Prop :=
  ∀ t, l.stage = .ended (.ok t) → c.get? l.name = some t

section

variable [FileStore σ] (e : Engine) (w : Workspace σ)

/-- A step leaves the cache as it is, and a load that ends with it has its template from there; or
it puts a template into the cache, and the load ends with the one that the cache has then. -/
theorem Stage.next_cases (name : String) (st : Stage) :
    ((st.next e name w).2.cache = w.cache ∧
      ∀ t, (st.next e name w).1 = .ended (.ok t) →
        st = .ended (.ok t) ∨ w.cache.get? name = some t) ∨
    ∃ t, (st.next e name w).1 = .ended (.ok (w.cache.insertIfAbsent name t).1) ∧
      (st.next e name w).2.cache = (w.cache.insertIfAbsent name t).2 := by
  cases st with
  | asking =>
    refine .inl ?_
    rw [next]
    rcases hget : w.cache.get? name with _ | x
    · by_cases hname : isValidName name = true <;> simp [hname]
    · simp
  | probing rest =>
    refine .inl ?_
    cases rest with
    | nil => simp [next]
    | cons path rest =>
      rw [next]
      by_cases hfile : FileStore.isFile w.store path = true <;> simp [hfile]
  | reading path =>
    refine .inl ?_
    rw [next]
    rcases FileStore.read w.store path with ⟨_ | _, _⟩ <;> simp
  | keeping t => exact .inr ⟨t, rfl, rfl⟩
  | ended result => exact .inl ⟨rfl, fun t ht => .inl ht⟩

namespace Load

theorem extends_next (l : Load) : w.cache.Extends (l.next e w).2.cache := by
  obtain ⟨hcache, -⟩ | ⟨t, -, hcache⟩ := l.stage.next_cases e w l.name
  · rw [next, hcache]
    exact .refl _
  · rw [next, hcache]
    exact w.cache.extends_insertIfAbsent l.name t

theorem Agrees.mono {c c' : Cache} {l : Load} (h : l.Agrees c) (hextends : c.Extends c') :
    l.Agrees c' := fun t ht => hextends.kept (h t ht)

/-- A load that agreed with the cache agrees with it after its next step. -/
theorem Agrees.next {w : Workspace σ} {l : Load} (h : l.Agrees w.cache) :
    (l.next e w).1.Agrees (l.next e w).2.cache := by
  intro t ht
  change (l.stage.next e l.name w).1 = _ at ht
  change (l.stage.next e l.name w).2.cache.get? l.name = _
  obtain ⟨hcache, hended⟩ | ⟨x, hended, hcache⟩ := l.stage.next_cases e w l.name
  · rw [hcache]
    exact (hended t ht).elim (h t) id
  · rw [hended] at ht
    obtain rfl : (w.cache.insertIfAbsent l.name x).1 = t := by simpa using ht
    rw [hcache, Cache.get?_insertIfAbsent_self]

end Load

namespace Call

/-- A step of a call is one of its loads, or leaves the cache as it is and starts loads. -/
theorem next_cases (j : Nat) (c : Call) :
    ((c.next e j w).2.cache = w.cache ∧
      ∀ l ∈ (c.next e j w).1.loads, l ∈ c.loads ∨ l.stage = .asking) ∨
    ∃ l ∈ c.loads, (c.next e j w).2 = (l.next e w).2 ∧
      ∀ l' ∈ (c.next e j w).1.loads, l' = (l.next e w).1 ∨ l' ∈ c.loads := by
  cases c with
  | load l => exact .inr ⟨l, by simp [loads], rfl, by simp [loads, next]⟩
  | render l data => exact .inr ⟨l, by simp [loads], rfl, by simp [loads, next]⟩
  | listing dir =>
    refine .inl ?_
    rw [next]
    rcases e.namesIn w.store dir with f | names <;> simp [loads, Load.start]
  | preload ls =>
    rw [next]
    rcases hl : ls[j]? with _ | l
    · exact .inl ⟨rfl, fun l hl => .inl hl⟩
    · refine .inr ⟨l, List.mem_of_getElem? hl, rfl, fun l' hl' => ?_⟩
      exact (List.mem_or_eq_of_mem_set hl').symm
  | failed f => exact .inl ⟨rfl, fun l hl => .inl hl⟩

theorem extends_next (j : Nat) (c : Call) : w.cache.Extends (c.next e j w).2.cache := by
  obtain ⟨hcache, -⟩ | ⟨l, -, hnext, -⟩ := c.next_cases e w j
  · rw [hcache]
    exact .refl _
  · rw [hnext]
    exact l.extends_next e w

/-- If the loads of a call agree with the cache, they do so after its next step. -/
theorem agrees_next {w : Workspace σ} {c : Call} (h : ∀ l ∈ c.loads, l.Agrees w.cache) (j : Nat) :
    ∀ l ∈ (c.next e j w).1.loads, l.Agrees (c.next e j w).2.cache := by
  intro l' hl'
  obtain ⟨hcache, hloads⟩ | ⟨l, hl, hnext, hloads⟩ := c.next_cases e w j
  · rw [hcache]
    obtain hold | hnew := hloads l' hl'
    · exact h l' hold
    · intro t ht
      rw [hnew] at ht
      cases ht
  · rw [hnext]
    obtain rfl | hold := hloads l' hl'
    · exact (h l hl).next e
    · exact (h l' hold).mono (l.extends_next e w)

end Call

end

/-! ### Sessions in which loads agree -/

namespace Session

variable [FileStore σ] [DecidableEq ι] {engines : ι → Engine} {s : Session ι σ}

/-- Every load that has succeeded has what stands under its name in the cache. -/
def Agrees (s : Session ι σ) : Prop := ∀ call ∈ s.calls, ∀ l ∈ call.2.loads, l.Agrees s.cache

/-- An event neither replaces an entry of the cache nor removes one. -/
theorem extends_step (event : Event ι σ) : s.cache.Extends (s.step engines event).cache := by
  cases event with
  | begins i r => exact .refl _
  | advances k j =>
    rw [step]
    rcases s.calls[k]? with _ | ⟨i, c⟩
    · exact .refl _
    · exact c.extends_next (engines i) (s.workspace i) j
  | changes stores => exact .refl _

/-- Loads agree after an event if they agreed before. -/
theorem Agrees.step (h : s.Agrees) (event : Event ι σ) : (s.step engines event).Agrees := by
  cases event with
  | begins i r =>
    intro call hcall l hl
    obtain hold | hnew := List.mem_append.1 hcall
    · exact h call hold l hl
    -- a call that has just been made has no load that has ended
    · obtain rfl := List.mem_singleton.1 hnew
      intro t ht
      cases r with
      | preload dir => cases hl
      | _ =>
        obtain rfl := List.mem_singleton.1 hl
        cases ht
  | advances k j =>
    rw [Session.step]
    rcases hk : s.calls[k]? with _ | ⟨i, c⟩
    · exact h
    · intro call hcall l hl
      obtain hold | rfl := List.mem_or_eq_of_mem_set hcall
      · exact (h call hold l hl).mono (c.extends_next (engines i) (s.workspace i) j)
      · exact Call.agrees_next (engines i) (h (i, c) (List.mem_of_getElem? hk)) j l hl
  | changes stores => exact h

theorem run_append (s : Session ι σ) (before after : List (Event ι σ)) :
    s.run engines (before ++ after) = (s.run engines before).run engines after :=
  List.foldl_append

/-- Whatever happens, entries are neither replaced nor removed. -/
theorem extends_run (events : List (Event ι σ)) : s.cache.Extends (s.run engines events).cache := by
  induction events generalizing s with
  | nil => exact .refl _
  | cons event events ih => exact (extends_step event).trans ih

/-- Whatever happens, loads agree. -/
theorem Agrees.run (h : s.Agrees) (events : List (Event ι σ)) : (s.run engines events).Agrees := by
  induction events generalizing s with
  | nil => exact h
  | cons event events ih => exact ih (h.step event)

/-- **Interleaved loads agree.**  In a session that starts without calls, any calls have been made
and have come as far as they like, in any order, while files changed.  The entries that the cache
had at some time are still there at the end.  A load that has succeeded, in whichever call, has the
template of the only entry under its name: a call to load answers with the source of that template,
and a call to render with what the renderer of its engine makes of it. -/
theorem loads_agree (engines : ι → Engine) (hcalls : s.calls = []) (hcache : s.cache.Distinct)
    (before after : List (Event ι σ)) :
    (∀ name t, (s.run engines before).cache.get? name = some t →
      (s.run engines (before ++ after)).cache.get? name = some t) ∧
    ∀ call ∈ (s.run engines (before ++ after)).calls, ∀ l ∈ call.2.loads, ∀ t,
      l.result? = some (.ok t) →
      (s.run engines (before ++ after)).cache.entries.filter (·.1 == l.name) = [(l.name, t)] ∧
      (call.2 = .load l → call.2.answer? (engines call.1) = some (.ok (.text t.source))) ∧
      ∀ data, call.2 = .render l data → call.2.answer? (engines call.1) =
        some ((t.render (engines call.1).renderer l.name data).map .text) := by
  have hstart : s.Agrees := by simp [Agrees, hcalls]
  refine ⟨fun name t hget => ?_, fun call hcall l hl t ht => ⟨?_, fun hload => ?_, ?_⟩⟩
  · rw [run_append]
    exact (extends_run after).kept hget
  · refine ((extends_run (before ++ after)).distinct hcache).filter_entries ?_
    exact hstart.run (before ++ after) call hcall l hl t (Load.result?_eq_some.1 ht)
  · rw [hload, Call.answer?, ht]
    rfl
  · intro data hrender
    rw [hrender, Call.answer?, ht]
    rfl

/-- Two engines that look for templates in the same directory. -/
def raceEngines (_ : Bool) : Engine := ⟨.ofString "t", none, .standard⟩

/-- The file at the second candidate only. -/
def raceStart : Session Bool MemoryStore :=
  ⟨⟨fun _ => MemoryStore.empty.insert (.ofString "t/a.jinja") "old", .empty⟩, []⟩

/-- Two loads find nothing in the cache, and the first one comes to the second candidate.  Then a
file is put at the first candidate, to which the other load comes.  Both have read what they
found. -/
def raceReads : List (Event Bool MemoryStore) :=
  [.begins false (.load "a"), .begins true (.load "a"), .advances 0 0, .advances 1 0,
    .advances 0 0, .advances 0 0, .advances 0 0,
    .changes fun _ => MemoryStore.empty.insert (.ofString "t/a") "new",
    .advances 1 0, .advances 1 0]

/-- The load that came later puts its template into the cache, then the other one goes on. -/
def raceKeeps : List (Event Bool MemoryStore) := [.advances 1 0, .advances 0 0]

theorem loads_agree_race :
    (raceStart.run raceEngines raceReads).calls =
      [(false, .load ⟨"a", .keeping ⟨.ofString "t/a.jinja", "old"⟩⟩),
        (true, .load ⟨"a", .keeping ⟨.ofString "t/a", "new"⟩⟩)] ∧
    (raceStart.run raceEngines (raceReads ++ raceKeeps)).cache.entries.filter (·.1 == "a") =
      [("a", ⟨.ofString "t/a", "new"⟩)] ∧
    ∀ call ∈ (raceStart.run raceEngines (raceReads ++ raceKeeps)).calls,
      call.2.answer? (raceEngines call.1) = some (.ok (.text "new")) := by
  have hcalls : (raceStart.run raceEngines (raceReads ++ raceKeeps)).calls =
      [(false, .load ⟨"a", .ended (.ok ⟨.ofString "t/a", "new"⟩)⟩),
        (true, .load ⟨"a", .ended (.ok ⟨.ofString "t/a", "new"⟩)⟩)] := rfl
  have hloads := (loads_agree raceEngines (s := raceStart) rfl List.nodup_nil raceReads raceKeeps).2
  rw [hcalls] at hloads ⊢
  simp only [List.forall_mem_cons] at hloads ⊢
  obtain ⟨hfirst, hsecond, -⟩ := hloads
  obtain ⟨hentry, hanswer, -⟩ := hfirst _ (List.mem_singleton_self _) _ rfl
  obtain ⟨-, hanswer', -⟩ := hsecond _ (List.mem_singleton_self _) _ rfl
  exact ⟨rfl, hentry, hanswer rfl, hanswer' rfl, nofun⟩

end Session

end ServiceScaffold.Template
