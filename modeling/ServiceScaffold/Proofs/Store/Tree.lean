import Mathlib.Data.List.Infix
import Mathlib.Tactic.SplitIfs
import ServiceScaffold.Store.Disk

/-!
# The tree of a disk

The entries of a disk are a list, and following a path looks names up in it.  Here the list is a
tree (`Disk.IsTree`): what stands somewhere stands in a directory.

* `Disk.standing?_put` : putting an entry changes what stands at its trail and nothing else;
* `Disk.IsTree.put` : a tree stays a tree when a directory gets a new entry;
* `Disk.follow_ok` : a path that can be followed leads to the trail that its components spell
  (`Disk.trailFrom`), whatever stands on the way;
* `Disk.standing?_of_missing` : **nothing stands where a path leads that cannot be followed**,
  unless the path climbs out of a directory that is not there (`Disk.climbsFrom`).
-/

namespace ServiceScaffold

namespace Disk

variable {d d' : Disk} {t s : Trail} {e : DiskEntry} {cs : List Component}

/-! ### Entries -/

@[simp] theorem standing?_nil (d : Disk) : d.standing? [] = some (.directory true) := by
  simp [standing?]

theorem find?_replace_of_ne (h : s ≠ t) (e : DiskEntry) (entries : List (Trail × DiskEntry)) :
    ((entries.map fun x => if x.1 == t then (t, e) else x).find? fun x => x.1 == s) =
      entries.find? fun x => x.1 == s := by
  induction entries with
  | nil => rfl
  | cons x entries ih =>
    simp only [List.map_cons, List.find?_cons, ih]
    by_cases hx : x.1 = t
    · have hts : (t == s) = false := beq_eq_false_iff_ne.2 h.symm
      simp [hx, hts]
    · simp [hx]

theorem find?_replace_self (t : Trail) (e : DiskEntry) {entries : List (Trail × DiskEntry)}
    (h : entries.any (fun x => x.1 == t) = true) :
    ((entries.map fun x => if x.1 == t then (t, e) else x).find? fun x => x.1 == t) =
      some (t, e) := by
  induction entries with
  | nil => simp at h
  | cons x entries ih =>
    simp only [List.map_cons, List.find?_cons]
    by_cases hx : x.1 = t
    · simp [hx]
    · have hxt : (x.1 == t) = false := beq_eq_false_iff_ne.2 hx
      rw [List.any_cons, hxt, Bool.false_or] at h
      simp only [hxt, ih h, Bool.false_eq_true, if_false]

theorem standing?_put (d : Disk) (ht : t ≠ []) (e : DiskEntry) (s : Trail) :
    (d.put t e).standing? s = if s = t then some e else d.standing? s := by
  by_cases hs : s = []
  · subst hs
    simp [ht.symm]
  simp only [standing?, hs, if_false]
  unfold put
  -- the entry of the trail is replaced, or a new one comes to the end
  by_cases hany : d.entries.any (fun x => x.1 == t) = true
  · rw [if_pos hany]
    split_ifs with hst
    · subst hst
      rw [find?_replace_self _ _ hany, Option.map_some]
    · rw [find?_replace_of_ne hst]
  · rw [if_neg hany]
    have hnone : (d.entries.find? fun x => x.1 == t) = none := by
      rwa [List.find?_eq_none, ← List.any_eq_false, ← Bool.not_eq_true]
    rw [List.find?_append]
    split_ifs with hst
    · subst hst
      simp [hnone]
    · simp [Ne.symm hst]

@[simp] theorem home_put (d : Disk) (t : Trail) (e : DiskEntry) : (d.put t e).home = d.home := by
  unfold put; split <;> rfl

/-! ### Trees -/

/-- A directory stands at the end of the trail. -/
def HasDirectory (d : Disk) (t : Trail) : Prop := ∃ r, d.standing? t = some (.directory r)

/-- What stands somewhere stands in a directory, and relative paths start in a directory. -/
structure IsTree (d : Disk) : Prop where
  above {t : Trail} {e : DiskEntry} : t ≠ [] → d.standing? t = some e → d.HasDirectory t.dropLast
  home : d.HasDirectory d.home

@[simp] theorem hasDirectory_nil (d : Disk) : d.HasDirectory [] := ⟨true, d.standing?_nil⟩

instance (d : Disk) (t : Trail) : Decidable (d.HasDirectory t) :=
  match h : d.standing? t with
  | some (.directory r) => isTrue ⟨r, h⟩
  | some (.file _) => isFalse (by simp [HasDirectory, h])
  | none => isFalse (by simp [HasDirectory, h])

theorem isTree_iff : d.IsTree ↔
    (∀ x ∈ d.entries, d.HasDirectory x.1.dropLast) ∧ d.HasDirectory d.home := by
  refine ⟨fun h => ⟨fun x hx => ?_, h.home⟩, fun h => ⟨fun {t e} ht hs => ?_, h.2⟩⟩
  · by_cases hnil : x.1 = []
    · simp [hnil]
    · have hsome : ∃ e, d.standing? x.1 = some e := by
        rw [standing?, if_neg hnil, ← Option.isSome_iff_exists, Option.isSome_map,
          List.find?_isSome]
        exact ⟨x, hx, by simp⟩
      obtain ⟨e, he⟩ := hsome
      exact h.above hnil he
  · rw [standing?, if_neg ht] at hs
    obtain ⟨x, hfind, -⟩ := Option.map_eq_some_iff.1 hs
    have hxt : x.1 = t := by simpa using List.find?_some hfind
    exact hxt ▸ h.1 x (List.mem_of_find?_eq_some hfind)

instance (d : Disk) : Decidable d.IsTree := decidable_of_iff _ isTree_iff.symm

theorem ne_nil_of_not_hasDirectory (h : ¬d.HasDirectory t) : t ≠ [] :=
  fun ht => h (ht ▸ d.hasDirectory_nil)

namespace IsTree

theorem dropLast (h : d.IsTree) (ht : d.HasDirectory t) : d.HasDirectory t.dropLast := by
  by_cases hnil : t = []
  · subst hnil; exact ht
  · obtain ⟨r, hr⟩ := ht
    exact h.above hnil hr

theorem standing?_append_of_none (h : d.IsTree) (ht : d.standing? t = none) (u : Trail) :
    d.standing? (t ++ u) = none := by
  -- what stands under the last name stands in a directory, so that the names before lead somewhere
  induction u using List.reverseRecOn with
  | nil => simpa using ht
  | append_singleton u name ih =>
    cases hs : d.standing? (t ++ (u ++ [name])) with
    | none => rfl
    | some e =>
      obtain ⟨r, hr⟩ := h.above (by simp) hs
      rw [← List.append_assoc, List.dropLast_concat, ih] at hr
      simp at hr

/-- A tree stays a tree if a directory gets an entry, where no directory gives way to a file. -/
theorem put (h : d.IsTree) (ht : t ≠ []) (hup : d.HasDirectory t.dropLast)
    (he : (∃ r, e = .directory r) ∨ ¬d.HasDirectory t) : (d.put t e).IsTree := by
  -- a directory is kept: it is put in its own place, or another entry is put elsewhere
  have hself : d.HasDirectory t → (d.put t e).HasDirectory t := fun hdir => by
    obtain ⟨r, rfl⟩ := he.resolve_right (not_not_intro hdir)
    exact ⟨r, by rw [standing?_put d ht, if_pos rfl]⟩
  have hkeep : ∀ s, d.HasDirectory s → (d.put t e).HasDirectory s := fun s hs => by
    by_cases hst : s = t
    · subst hst; exact hself hs
    · obtain ⟨r, hr⟩ := hs
      exact ⟨r, by rw [standing?_put d ht, if_neg hst, hr]⟩
  refine ⟨fun {s e'} hs hstand => hkeep _ ?_, ?_⟩
  · rw [standing?_put d ht] at hstand
    split_ifs at hstand with hst
    · subst hst; exact hup
    · exact h.above hs hstand
  · rw [home_put]
    exact hkeep _ h.home

end IsTree

/-! ### Following a path -/

/-- The steps climb out of a directory that is not there. -/
def climbsFrom (d : Disk) (t : Trail) : List Component → Bool
  | [] => false
  | .root :: rest => climbsFrom d [] rest
  | .current :: rest => climbsFrom d t rest
  | .parent :: rest => climbsFrom d t.dropLast rest
  | .normal name :: rest =>
    match d.standing? (t ++ [name]) with
    | some (.directory _) => climbsFrom d (t ++ [name]) rest
    | some (.file _) => false
    | none => !rest.all Component.isInner

/-- The path climbs out of a directory that is not there. -/
def climbs (d : Disk) (p : FilePath) : Bool := d.climbsFrom d.home p.components

@[simp] theorem trailFrom_nil (t : Trail) : trailFrom t [] = t := rfl

@[simp] theorem trailFrom_cons (t : Trail) (c : Component) (cs : List Component) :
    trailFrom t (c :: cs) = trailFrom (stepFrom t c) cs := rfl

theorem trailFrom_append (t : Trail) (a b : List Component) :
    trailFrom t (a ++ b) = trailFrom (trailFrom t a) b := List.foldl_append

theorem trailFrom_inner (t : Trail) (h : cs.all Component.isInner = true) :
    trailFrom t cs = t ++ cs.filterMap Component.name? := by
  induction cs generalizing t with
  | nil => simp
  | cons c cs ih =>
    obtain ⟨hc, hcs⟩ : c.isInner = true ∧ cs.all Component.isInner = true := by simpa using h
    rw [trailFrom_cons, ih _ hcs]
    cases c with
    | root => simp [Component.isInner] at hc
    | parent => simp [Component.isInner] at hc
    | current => rfl
    | normal name => simp [stepFrom, Component.name?]

theorem climbsFrom_inner (t : Trail) (h : cs.all Component.isInner = true) :
    d.climbsFrom t cs = false := by
  induction cs generalizing t with
  | nil => rfl
  | cons c cs ih =>
    obtain ⟨hc, hcs⟩ : c.isInner = true ∧ cs.all Component.isInner = true := by simpa using h
    cases c with
    | root => simp [Component.isInner] at hc
    | parent => simp [Component.isInner] at hc
    | current => exact ih t hcs
    | normal name =>
      rw [climbsFrom]
      split
      · exact ih _ hcs
      · rfl
      · simpa using hcs

theorem climbsFrom_append_inner (h : d.climbsFrom t cs = false) {more : List Component}
    (hmore : more.all Component.isInner = true) : d.climbsFrom t (cs ++ more) = false := by
  induction cs generalizing t with
  | nil => exact climbsFrom_inner t hmore
  | cons c cs ih =>
    cases c with
    | root => exact ih h
    | current => exact ih h
    | parent => exact ih h
    | normal name =>
      rw [climbsFrom] at h
      rw [List.cons_append, climbsFrom]
      split at h
      · exact ih h
      · rfl
      · simpa [hmore] using h

/-- What goes on inside a directory climbs only if the path to the directory does. -/
theorem climbs_eq_false {p out : FilePath} {more : List Component} (h : d.climbs out = false)
    (hp : p.components = out.components ++ more) (hmore : more.all Component.isInner = true) :
    d.climbs p = false := by
  rw [climbs, hp]
  exact climbsFrom_append_inner h hmore

/-- A path that can be followed leads to the trail that its components spell. -/
theorem follow_ok {x : DiskPlace} (h : d.follow t cs = .ok x) :
    x = ⟨trailFrom t cs, d.standing? (trailFrom t cs)⟩ := by
  fun_induction follow d t cs <;> simp_all [stepFrom]

theorem hasDirectory_dropLast_of_follow (hd : d.IsTree) (ht : d.HasDirectory t) {x : DiskPlace}
    (h : d.follow t cs = .ok x) : d.HasDirectory x.trail.dropLast := by
  fun_induction follow d t cs with
  | case1 t =>
    obtain rfl := Except.ok.inj h
    exact hd.dropLast ht
  | case2 t rest ih => exact ih d.hasDirectory_nil h
  | case3 t rest ih => exact ih ht h
  | case4 t rest ih => exact ih (hd.dropLast ht) h
  | case5 t name rest r hs ih => exact ih ⟨r, hs⟩ h
  | case6 t name b hs =>
    obtain rfl := Except.ok.inj h
    simpa using ht
  | case7 => simp at h
  | case8 t name hs =>
    obtain rfl := Except.ok.inj h
    simpa using ht
  | case9 => simp at h

theorem climbsFrom_of_follow_ok {x : DiskPlace} (h : d.follow t cs = .ok x) :
    d.climbsFrom t cs = false := by
  fun_induction follow d t cs <;> simp_all [climbsFrom]

/-- Nothing stands where a path leads that cannot be followed, unless the path climbs out of a
directory that is not there. -/
theorem standing?_of_missing (hd : d.IsTree) (h : d.follow t cs = .error .missing)
    (hc : d.climbsFrom t cs = false) : d.standing? (trailFrom t cs) = none := by
  fun_induction follow d t cs with
  | case1 t => simp at h
  | case2 t rest ih => exact ih h hc
  | case3 t rest ih => exact ih h hc
  | case4 t rest ih => exact ih h hc
  | case5 t name rest r hs ih =>
    refine ih h ?_
    simpa [climbsFrom, hs] using hc
  | case6 => simp at h
  | case7 => simp at h
  | case8 => simp at h
  | case9 t name rest hs hne =>
    -- the first name that is missing: the rest of the path goes on below nothing
    have hinner : rest.all Component.isInner = true := by simpa [climbsFrom, hs] using hc
    rw [trailFrom_cons, trailFrom_inner _ hinner]
    exact hd.standing?_append_of_none hs _

theorem exists_follow_of_append {x : DiskPlace} {more : List Component}
    (h : d.follow t (cs ++ more) = .ok x) : ∃ y, d.follow t cs = .ok y := by
  induction cs generalizing t with
  | nil => exact ⟨_, rfl⟩
  | cons c cs ih =>
    cases c with
    | root => exact ih h
    | current => exact ih h
    | parent => exact ih h
    | normal name =>
      rcases hs : d.standing? (t ++ [name]) with _ | ⟨b | r⟩
      · rcases cs with _ | ⟨c, cs⟩
        · exact ⟨⟨t ++ [name], none⟩, by simp [follow, hs]⟩
        · simp [follow, hs] at h
      · rcases cs with _ | ⟨c, cs⟩
        · exact ⟨⟨t ++ [name], some (.file b)⟩, by simp [follow, hs]⟩
        · simp [follow, hs] at h
      · obtain ⟨y, hy⟩ := ih (t := t ++ [name]) (by simpa [follow, hs] using h)
        exact ⟨y, by simpa [follow, hs] using hy⟩

/-! ### Disks that keep what stood -/

/-- Directories stay directories and files stay files, whatever is in them. -/
structure KeepsKinds (d d' : Disk) : Prop where
  home : d'.home = d.home
  directory {t : Trail} : d.HasDirectory t → d'.HasDirectory t
  file {t : Trail} {b : ByteArray} :
    d.standing? t = some (.file b) → ∃ b', d'.standing? t = some (.file b')

/-- Everything that stood somewhere still stands there. -/
structure Keeps (d d' : Disk) : Prop where
  home : d'.home = d.home
  standing {t : Trail} {e : DiskEntry} : d.standing? t = some e → d'.standing? t = some e

namespace Keeps

theorem refl (d : Disk) : d.Keeps d := ⟨rfl, id⟩

theorem trans {d₁ d₂ d₃ : Disk} (h : d₁.Keeps d₂) (h' : d₂.Keeps d₃) : d₁.Keeps d₃ :=
  ⟨h'.home.trans h.home, fun hs => h'.standing (h.standing hs)⟩

theorem kinds (h : d.Keeps d') : d.KeepsKinds d' :=
  ⟨h.home, fun ⟨r, hr⟩ => ⟨r, h.standing hr⟩, fun {_ b} hs => ⟨b, h.standing hs⟩⟩

theorem put (d : Disk) (hs : d.standing? t = none) (e : DiskEntry) : d.Keeps (d.put t e) := by
  have ht : t ≠ [] := by rintro rfl; simp at hs
  refine ⟨home_put d t e, fun {s e'} h => ?_⟩
  rw [standing?_put d ht, if_neg, h]
  rintro rfl
  simp [hs] at h

end Keeps

namespace KeepsKinds

theorem trans {d₁ d₂ d₃ : Disk} (h : d₁.KeepsKinds d₂) (h' : d₂.KeepsKinds d₃) :
    d₁.KeepsKinds d₃ :=
  ⟨h'.home.trans h.home, fun hs => h'.directory (h.directory hs), fun hs =>
    let ⟨_, hb⟩ := h.file hs
    h'.file hb⟩

theorem put_file (ht : ¬d.HasDirectory t) (b : ByteArray) : d.KeepsKinds (d.put t (.file b)) := by
  have hnil := ne_nil_of_not_hasDirectory ht
  refine ⟨home_put d t _, fun {s} hs => ?_, fun {s b'} hs => ?_⟩
  · obtain ⟨r, hr⟩ := hs
    refine ⟨r, ?_⟩
    rw [standing?_put d hnil, if_neg, hr]
    rintro rfl
    exact ht ⟨r, hr⟩
  · rw [standing?_put d hnil]
    split_ifs
    · exact ⟨b, rfl⟩
    · exact ⟨b', hs⟩

theorem climbsFrom (h : d.KeepsKinds d') (hc : d.climbsFrom t cs = false) :
    d'.climbsFrom t cs = false := by
  induction cs generalizing t with
  | nil => rfl
  | cons c cs ih =>
    cases c with
    | root => exact ih hc
    | current => exact ih hc
    | parent => exact ih hc
    | normal name =>
      rw [Disk.climbsFrom] at hc
      rw [Disk.climbsFrom]
      split at hc
      · rename_i r hs
        obtain ⟨r', hs'⟩ := h.directory ⟨r, hs⟩
        simpa [hs'] using ih hc
      · rename_i b hs
        obtain ⟨b', hs'⟩ := h.file hs
        simp [hs']
      · have hinner : cs.all Component.isInner = true := by simpa using hc
        split
        · exact climbsFrom_inner _ hinner
        · rfl
        · simpa using hc

theorem follow_notDirectory (h : d.KeepsKinds d')
    (hf : d.follow t cs = .error .notDirectory) : d'.follow t cs = .error .notDirectory := by
  fun_induction follow d t cs with
  | case1 t => simp at hf
  | case2 t rest ih => exact ih hf
  | case3 t rest ih => exact ih hf
  | case4 t rest ih => exact ih hf
  | case5 t name rest r hs ih =>
    obtain ⟨r', hs'⟩ := h.directory ⟨r, hs⟩
    simpa [follow, hs'] using ih hf
  | case6 => simp at hf
  | case7 t name rest b hs hne =>
    obtain ⟨b', hs'⟩ := h.file hs
    simp [follow, hs']
  | case8 => simp at hf
  | case9 => simp at hf

end KeepsKinds

end Disk

end ServiceScaffold
