import Mathlib.Data.List.Nodup
import Mathlib.Data.List.Infix
import Mathlib.Data.List.TakeWhile
import ServiceScaffold.Proofs.FilePath.Names
import ServiceScaffold.Proofs.Store.Reading

/-!
# What stands below a directory

The entries of a proper disk stand once each, under names that a path can spell.  What stands below
a directory is what stands in it and what stands below the directories in it.

* `Disk.IsProper` : a tree whose entries stand once each, under ordinary names;
* `Disk.trailsBelow`, `Disk.childTrails` : the entries of a kind below a directory, and in it;
* `Disk.IsProper.trailsBelow_perm` : **the entries below a directory are those in it and those
  below its directories, each once**;
* `Disk.IsProper.stat_join` : a name leads from a directory to what stands under it.
-/

namespace ServiceScaffold

/-- The entry is a file. -/
def DiskEntry.isFile : DiskEntry → Bool
  | .file _ => true
  | .directory _ => false

/-- The entry is a directory. -/
def DiskEntry.isDirectory : DiskEntry → Bool
  | .file _ => false
  | .directory _ => true

namespace Disk

variable {d : Disk} {t u : Trail} {e : DiskEntry} {p q : FilePath} {names : List (List Char)}

/-! ### Proper disks -/

/-- A tree whose entries stand once each, under names that a path can spell. -/
structure IsProper (d : Disk) : Prop extends IsTree d where
  distinct : (d.entries.map Prod.fst).Nodup
  named : ∀ x ∈ d.entries, x.1 ≠ [] ∧ ∀ name ∈ x.1, FilePath.IsName name

instance (d : Disk) : Decidable d.IsProper :=
  decidable_of_iff (d.IsTree ∧ (d.entries.map Prod.fst).Nodup ∧
      ∀ x ∈ d.entries, x.1 ≠ [] ∧ ∀ name ∈ x.1, FilePath.IsName name)
    ⟨fun h => ⟨h.1, h.2.1, h.2.2⟩, fun h => ⟨h.toIsTree, h.distinct, h.named⟩⟩

/-- What stands at the end of a trail stands in a directory, at every step of the way. -/
theorem IsTree.hasDirectory_of_append (h : d.IsTree) (hu : u ≠ [])
    (hs : d.standing? (t ++ u) = some e) : d.HasDirectory t := by
  induction u using List.reverseRecOn generalizing e with
  | nil => exact absurd rfl hu
  | append_singleton u name ih =>
    have hup := h.above (by simp) hs
    rw [← List.append_assoc, List.dropLast_concat] at hup
    by_cases hnil : u = []
    · subst hnil
      rwa [List.append_nil] at hup
    · obtain ⟨r, hr⟩ := hup
      exact ih hnil hr

namespace IsProper

variable (h : d.IsProper)

include h

theorem mem_entries_iff : (u, e) ∈ d.entries ↔ u ≠ [] ∧ d.standing? u = some e := by
  constructor
  · intro hmem
    have hnil := (h.named _ hmem).1
    refine ⟨hnil, ?_⟩
    obtain ⟨x, hfind⟩ := Option.isSome_iff_exists.1
      (List.find?_isSome (p := fun x => x.1 == u).2 ⟨(u, e), hmem, by simp⟩)
    have hxu : x.1 = u := by simpa using List.find?_some hfind
    have hx : x = (u, e) :=
      List.inj_on_of_nodup_map h.distinct (List.mem_of_find?_eq_some hfind) hmem hxu
    rw [standing?, if_neg hnil, hfind, hx]
    rfl
  · rintro ⟨hnil, hs⟩
    rw [standing?, if_neg hnil] at hs
    obtain ⟨x, hfind, rfl⟩ := Option.map_eq_some_iff.1 hs
    obtain rfl : x.1 = u := by simpa using List.find?_some hfind
    exact List.mem_of_find?_eq_some hfind

theorem isName_of_standing (hs : d.standing? u = some e) : ∀ name ∈ u, FilePath.IsName name := by
  by_cases hnil : u = []
  · subst hnil
    simp
  · exact (h.named _ (h.mem_entries_iff.2 ⟨hnil, hs⟩)).2

end IsProper

/-! ### Below a directory -/

/-- The trails of the entries of a kind that stand below a directory. -/
def trailsBelow (d : Disk) (kind : DiskEntry → Bool) (t : Trail) : List Trail :=
  (d.entries.filter fun x => kind x.2 && (t.isPrefixOf x.1 && x.1 != t)).map Prod.fst

/-- The trails of the entries of a kind that stand in a directory. -/
def childTrails (d : Disk) (kind : DiskEntry → Bool) (t : Trail) : List Trail :=
  (d.entries.filter fun x => kind x.2 && (x.1.dropLast == t && x.1 != [])).map Prod.fst

namespace IsProper

variable (h : d.IsProper) (kind : DiskEntry → Bool)

include h

theorem mem_trailsBelow : u ∈ d.trailsBelow kind t ↔
    ∃ e, d.standing? u = some e ∧ kind e = true ∧ ∃ name rest, u = t ++ name :: rest := by
  simp only [trailsBelow, List.mem_map, List.mem_filter, Prod.exists, Bool.and_eq_true,
    List.isPrefixOf_iff_prefix, bne_iff_ne]
  constructor
  · rintro ⟨u, e, ⟨hmem, hkind, ⟨more, rfl⟩, hne⟩, rfl⟩
    obtain ⟨name, rest, rfl⟩ := List.exists_cons_of_ne_nil (l := more) fun hnil =>
      hne (by rw [hnil, List.append_nil])
    exact ⟨e, (h.mem_entries_iff.1 hmem).2, hkind, name, rest, rfl⟩
  · rintro ⟨e, hs, hkind, name, rest, rfl⟩
    exact ⟨_, e, ⟨h.mem_entries_iff.2 ⟨by simp, hs⟩, hkind, List.prefix_append _ _, by simp⟩, rfl⟩

theorem mem_childTrails : u ∈ d.childTrails kind t ↔
    ∃ e, d.standing? u = some e ∧ kind e = true ∧ ∃ name, u = t ++ [name] := by
  simp only [childTrails, List.mem_map, List.mem_filter, Prod.exists, Bool.and_eq_true,
    beq_iff_eq, bne_iff_ne]
  constructor
  · rintro ⟨u, e, ⟨hmem, hkind, rfl, hne⟩, rfl⟩
    exact ⟨e, (h.mem_entries_iff.1 hmem).2, hkind, u.getLast hne,
      (List.dropLast_append_getLast hne).symm⟩
  · rintro ⟨e, hs, hkind, name, rfl⟩
    exact ⟨_, e, ⟨h.mem_entries_iff.2 ⟨by simp, hs⟩, hkind, List.dropLast_concat, by simp⟩, rfl⟩

theorem nodup_trailsBelow (t : Trail) : (d.trailsBelow kind t).Nodup :=
  h.distinct.sublist (List.filter_sublist.map _)

theorem nodup_childTrails (t : Trail) : (d.childTrails kind t).Nodup :=
  h.distinct.sublist (List.filter_sublist.map _)

/-- **The entries below a directory** are those in it and those below its directories, each once. -/
theorem trailsBelow_perm (t : Trail) : (d.trailsBelow kind t).Perm
    (d.childTrails kind t ++
      (d.childTrails DiskEntry.isDirectory t).flatMap (d.trailsBelow kind)) := by
  -- a trail tells the child of the directory that it passes
  have hchild : ∀ {c c' name name' rest rest'}, c = t ++ [name] → c' = t ++ [name'] →
      c ++ rest = c' ++ rest' → c = c' := by
    rintro _ _ name name' rest rest' rfl rfl heq
    rw [List.append_assoc, List.append_assoc] at heq
    obtain ⟨rfl, -⟩ := List.cons.inj (List.append_cancel_left heq)
    rfl
  refine (List.perm_ext_iff_of_nodup (h.nodup_trailsBelow kind t) ?_).2 fun u => ?_
  · refine List.nodup_append.2 ⟨h.nodup_childTrails kind t, ?_, ?_⟩
    · refine List.nodup_flatMap.2 ⟨fun c _ => h.nodup_trailsBelow kind c, ?_⟩
      refine (h.nodup_childTrails _ t).imp_of_mem fun {c c'} hc hc' hne u hu hu' => hne ?_
      obtain ⟨-, -, -, name, hname⟩ := (h.mem_childTrails _).1 hc
      obtain ⟨-, -, -, name', hname'⟩ := (h.mem_childTrails _).1 hc'
      obtain ⟨-, -, -, n, rest, rfl⟩ := (h.mem_trailsBelow kind).1 hu
      obtain ⟨-, -, -, n', rest', heq⟩ := (h.mem_trailsBelow kind).1 hu'
      exact hchild hname hname' heq
    · rintro u hu _ hbelow rfl
      obtain ⟨-, -, -, name, rfl⟩ := (h.mem_childTrails kind).1 hu
      obtain ⟨c, hc, hu'⟩ := List.mem_flatMap.1 hbelow
      obtain ⟨-, -, -, name', rfl⟩ := (h.mem_childTrails _).1 hc
      obtain ⟨-, -, -, n, rest, heq⟩ := (h.mem_trailsBelow kind).1 hu'
      have hlength := congrArg List.length heq
      simp at hlength
  · rw [List.mem_append, List.mem_flatMap, h.mem_trailsBelow, h.mem_childTrails]
    constructor
    · rintro ⟨e, hs, hkind, name, rest, rfl⟩
      by_cases hrest : rest = []
      · subst hrest
        exact .inl ⟨e, hs, hkind, name, rfl⟩
      · rw [List.append_cons] at hs
        obtain ⟨r, hr⟩ := h.hasDirectory_of_append hrest hs
        obtain ⟨next, rest, rfl⟩ := List.exists_cons_of_ne_nil hrest
        refine .inr ⟨t ++ [name], (h.mem_childTrails _).2 ⟨_, hr, rfl, name, rfl⟩,
          (h.mem_trailsBelow kind).2 ⟨e, ?_, hkind, next, rest, List.append_cons _ _ _⟩⟩
        rwa [List.append_cons]
    · rintro (⟨e, hs, hkind, name, rfl⟩ | ⟨c, hc, hbelow⟩)
      · exact ⟨e, hs, hkind, name, [], rfl⟩
      · obtain ⟨-, -, -, name, rfl⟩ := (h.mem_childTrails _).1 hc
        obtain ⟨e, hs, hkind, next, rest, rfl⟩ := (h.mem_trailsBelow kind).1 hbelow
        exact ⟨e, hs, hkind, name, next :: rest, by simp⟩

end IsProper

/-! ### Paths that go on from a directory -/

/-- A path that ends in a name may lead to a file. -/
theorem wantsDirectory_append_name {name : List Char} (h : FilePath.IsName name)
    (front : List Char) : wantsDirectory ⟨front ++ name⟩ = false := by
  obtain ⟨init, c, rfl⟩ := (List.eq_nil_or_concat' name).resolve_left h.ne_nil
  have hc : c ≠ '/' := by simpa [FilePath.isSlash] using h.noSlash c (by simp)
  have hreverse : (front ++ (init ++ [c])).reverse.dropWhile FilePath.isSlash =
      c :: (front ++ init).reverse := by
    rw [← List.append_assoc, List.reverse_append, List.reverse_singleton, List.singleton_append,
      List.dropWhile_cons_of_neg (by simpa [FilePath.isSlash] using hc)]
  have hdot : endsInDot ⟨front ++ (init ++ [c])⟩ = false := by
    rw [endsInDot, hreverse]
    obtain rfl | ⟨start, x, rfl⟩ := List.eq_nil_or_concat' init
    · have hne : c ≠ '.' := by
        rintro rfl
        exact h.counts (by simp)
      simp [hne]
    · have hx : x ≠ '/' := by simpa [FilePath.isSlash] using h.noSlash x (by simp)
      simp [hx]
  refine wantsDirectory_eq_false hdot ?_
  simp [endsInSlash, hc]

/-- What is joined tells whether a path can only lead to a directory. -/
theorem wantsDirectory_join (dir : FilePath) (habs : q.isAbsolute = false) (hne : q.chars ≠ []) :
    wantsDirectory (dir.join q) = wantsDirectory q := by
  obtain ⟨front, hjoin, hfront⟩ : ∃ front, dir.join q = ⟨front ++ q.chars⟩ ∧
      (front = [] ∨ ∃ start, front = start ++ ['/']) := by
    rw [FilePath.join, habs]
    by_cases hempty : dir.chars = []
    · exact ⟨[], by simp [hempty], .inl rfl⟩
    by_cases hlast : dir.chars.getLast? = some '/'
    · exact ⟨dir.chars, by simp [hlast], .inr (List.getLast?_eq_some_iff.1 hlast)⟩
    · exact ⟨dir.chars ++ ['/'], by simp [hempty, hlast], .inr ⟨dir.chars, rfl⟩⟩
  -- a path that starts with no slash does not consist of slashes
  obtain ⟨c, rest, hdrop⟩ :
      ∃ c rest, q.chars.reverse.dropWhile FilePath.isSlash = c :: rest := by
    refine List.exists_cons_of_ne_nil fun hnil => ?_
    obtain ⟨first, cs, hq⟩ := List.exists_cons_of_ne_nil hne
    have hslash : first = '/' := by
      simpa [FilePath.isSlash] using List.dropWhile_eq_nil_iff.1 hnil first (by simp [hq])
    simp [FilePath.isAbsolute, hq, hslash] at habs
  have hslash : endsInSlash (dir.join q) = endsInSlash q := by
    rw [endsInSlash, endsInSlash, hjoin, List.getLast?_append_of_ne_nil _ hne]
  have hdot : endsInDot (dir.join q) = endsInDot q := by
    rw [endsInDot, endsInDot, hjoin, List.reverse_append, List.dropWhile_append, hdrop]
    obtain rfl | ⟨start, rfl⟩ := hfront
    · simp
    · cases rest with
      | nil => by_cases hc : c = '.' <;> simp [hc]
      | cons d rest => by_cases hc : c = '.' <;> by_cases hd : d = '/' <;> simp [hc, hd]
  rw [wantsDirectory, wantsDirectory, hslash, hdot]

theorem stat_eq_ok_iff : d.stat p = .ok (u, e) ↔ p.chars ≠ [] ∧
    d.follow d.home p.components = .ok ⟨u, some e⟩ ∧
      (e.isFile = true → wantsDirectory p = false) := by
  rw [stat, place]
  by_cases hp : p.chars = []
  · simp [hp]
  rw [if_neg (by simpa using hp)]
  rcases d.follow d.home p.components with x | ⟨u', _ | b | r⟩
  · simp
  · simp
  · by_cases hwants : wantsDirectory p = true
    · have hfile : DiskEntry.file b = e → e.isFile = true := by rintro rfl; rfl
      simpa [hwants] using fun _ _ => hfile
    · simp [hp, hwants]
  · have hdirectory : DiskEntry.directory r = e → e.isFile = false := by rintro rfl; rfl
    simpa [hp] using fun _ he hfile => absurd (hdirectory he) (by simp [hfile])

/-- A path goes on from the directory to which it leads. -/
theorem follow_append {cs : List Component} {r : Bool}
    (h : d.follow t cs = .ok ⟨u, some (.directory r)⟩) (more : List Component) :
    d.follow t (cs ++ more) = d.follow u more := by
  fun_induction follow d t cs <;> simp_all [follow]

/-- Names lead from a directory to what stands under them. -/
theorem IsTree.follow_names (hd : d.IsTree) : d.follow t (names.map .normal) = .ok ⟨u, some e⟩ ↔
    u = t ++ names ∧ d.standing? (t ++ names) = some e := by
  constructor
  · intro h
    have hinner : (names.map Component.normal).all Component.isInner = true := by
      simp [Component.isInner]
    have htrail := follow_ok h
    rw [trailFrom_inner t hinner, List.filterMap_map] at htrail
    obtain ⟨rfl, hs⟩ := DiskPlace.mk.inj htrail
    simpa [Function.comp_def, Component.name?] using hs.symm
  · rintro ⟨rfl, hs⟩
    induction names generalizing t with
    | nil => simpa [follow] using hs
    | cons name names ih =>
      rw [List.append_cons] at hs ⊢
      by_cases hnil : names = []
      · subst hnil
        rw [List.append_nil] at hs ⊢
        cases e <;> simp [follow, hs]
      · obtain ⟨r, hr⟩ := hd.hasDirectory_of_append hnil hs
        simpa [follow, hr] using ih hs

/-- What a path finds that goes on by names from a directory. -/
theorem IsTree.stat_names {r : Bool} (hd : d.IsTree) (hp : d.stat p = .ok (t, .directory r))
    (hq : q.components = p.components ++ names.map .normal) :
    d.stat q = .ok (u, e) ↔ (u = t ++ names ∧ d.standing? (t ++ names) = some e) ∧
      (e.isFile = true → wantsDirectory q = false) := by
  obtain ⟨hne, hfollow, -⟩ := stat_eq_ok_iff.1 hp
  have hqne : q.chars ≠ [] := FilePath.chars_ne_nil (by
    rw [hq]
    exact List.append_ne_nil_of_left_ne_nil (FilePath.components_ne_nil hne) _)
  rw [stat_eq_ok_iff, hq, follow_append hfollow, hd.follow_names]
  tauto

/-- A name leads from a directory to what stands under it. -/
theorem IsProper.stat_join {r : Bool} {name : List Char} (hd : d.IsProper)
    (hp : d.stat p = .ok (t, .directory r)) (hs : d.standing? (t ++ [name]) = some e) :
    d.stat (p.join ⟨name⟩) = .ok (t ++ [name], e) := by
  have hname := hd.isName_of_standing hs name (by simp)
  have hjoin : (p.join ⟨name⟩).components = p.components ++ [name].map .normal :=
    FilePath.components_join_name p hname.components
  refine (hd.toIsTree.stat_names hp hjoin).2 ⟨⟨rfl, hs⟩, fun _ => ?_⟩
  obtain ⟨front, hfront⟩ := p.exists_join_eq ⟨name⟩
  rw [hfront]
  exact wantsDirectory_append_name hname front

end Disk

end ServiceScaffold
