import Mathlib.Data.List.Nodup
import Mathlib.Data.List.Sort
import Mathlib.Tactic.SplitIfs
import ServiceScaffold.Keyed

/-!
# Laws of keyed lists

What putting a value under a key does to the keys and to what stands under the others, in both
orders.

* `Keyed.keys_put`, `Keyed.lookup_put`, `Keyed.mem_of_mem_put` : the order of insertion;
* `Keyed.dropRepeated_of_nodup` : different keys are all kept;
* `Keyed.mapValues?` : entries with what comes of their values;
* `Keyed.lookup_insertSorted`, `Keyed.sorted_insertSorted` : the order of keys;
* `Keyed.Sorted.ext` : sorted entries are known by what stands under each key.
-/

namespace ServiceScaffold.Keyed

variable {α : Type} {key other : String} {value : α} {entries : List (String × α)}

/-! ### Lookup -/

theorem lookup_isSome : (lookup key entries).isSome = true ↔ key ∈ keys entries := by
  induction entries with
  | nil => simp [lookup, keys]
  | cons e entries ih =>
    obtain ⟨k, v⟩ := e
    by_cases hk : k = key
    · simp [lookup, keys, hk]
    · simpa [lookup, keys, hk, Ne.symm hk] using ih

theorem lookup_eq_none : lookup key entries = none ↔ key ∉ keys entries := by
  rw [← lookup_isSome, Option.not_isSome_iff_eq_none]

theorem mem_of_lookup (h : lookup key entries = some value) : (key, value) ∈ entries := by
  induction entries with
  | nil => simp [lookup] at h
  | cons e entries ih =>
    obtain ⟨k, v⟩ := e
    by_cases hk : k = key
    · subst hk
      obtain rfl : v = value := by simpa [lookup] using h
      exact List.mem_cons_self
    · exact List.mem_cons_of_mem _ (ih (by simpa [lookup, hk] using h))

theorem lookup_of_mem (h : (keys entries).Nodup) (hmem : (key, value) ∈ entries) :
    lookup key entries = some value := by
  induction entries with
  | nil => simp at hmem
  | cons e entries ih =>
    obtain ⟨k, v⟩ := e
    obtain ⟨hk, hrest⟩ := List.nodup_cons.1 h
    obtain heq | hmem := List.mem_cons.1 hmem
    · obtain ⟨rfl, rfl⟩ := Prod.mk.inj heq
      simp [lookup]
    · have hne : k ≠ key := by
        rintro rfl
        exact hk (List.mem_map.2 ⟨_, hmem, rfl⟩)
      rw [lookup, if_neg hne, ih hrest hmem]

theorem lookup_reverse (h : (keys entries).Nodup) (key : String) :
    lookup key entries.reverse = lookup key entries := by
  have hreverse : (keys entries.reverse).Nodup := by
    rwa [keys, List.map_reverse, List.nodup_reverse]
  refine Option.ext fun v => ⟨fun hv => ?_, fun hv => ?_⟩
  · exact lookup_of_mem h (List.mem_reverse.1 (mem_of_lookup hv))
  · exact lookup_of_mem hreverse (List.mem_reverse.2 (mem_of_lookup hv))

theorem filter_eq_nil (h : key ∉ keys entries) : entries.filter (·.1 == key) = [] := by
  rw [List.filter_eq_nil_iff]
  intro entry hentry hkey
  exact h (List.mem_map.2 ⟨entry, hentry, beq_iff_eq.1 hkey⟩)

/-- Of keys that stand once each, there is one entry for each that is looked up. -/
theorem filter_of_lookup (h : (keys entries).Nodup) (hlookup : lookup key entries = some value) :
    entries.filter (·.1 == key) = [(key, value)] := by
  induction entries with
  | nil => cases hlookup
  | cons entry entries ih =>
    obtain ⟨k, v⟩ := entry
    obtain ⟨hk, hrest⟩ := List.nodup_cons.1 h
    rw [lookup] at hlookup
    rw [List.filter_cons]
    split_ifs at hlookup with hkey
    · obtain rfl := hkey
      obtain rfl := Option.some.inj hlookup
      rw [if_pos (beq_self_eq_true k), filter_eq_nil hk]
    · rw [if_neg (by simpa using hkey)]
      exact ih hrest hlookup

theorem lookup_append (key : String) (entries more : List (String × α)) :
    lookup key (entries ++ more) = (lookup key entries).or (lookup key more) := by
  induction entries with
  | nil => rfl
  | cons e entries ih =>
    obtain ⟨k, v⟩ := e
    rw [List.cons_append, lookup, lookup, ih]
    by_cases hk : k = key
    · rw [if_pos hk, if_pos hk, Option.some_or]
    · rw [if_neg hk, if_neg hk]

theorem lookup_map {β : Type} (f : α → β) (key : String) (entries : List (String × α)) :
    lookup key (entries.map fun (k, v) => (k, f v)) = (lookup key entries).map f := by
  induction entries with
  | nil => rfl
  | cons e entries ih =>
    obtain ⟨k, v⟩ := e
    rw [List.map_cons, lookup, lookup, ih]
    by_cases hk : k = key
    · rw [if_pos hk, if_pos hk, Option.map_some]
    · rw [if_neg hk, if_neg hk]

/-! ### In the order of insertion -/

/-- A key that is there keeps its place, another one comes to the end. -/
theorem keys_put (key : String) (value : α) (entries : List (String × α)) :
    keys (put key value entries) =
      if key ∈ keys entries then keys entries else keys entries ++ [key] := by
  induction entries with
  | nil => simp [put, keys]
  | cons e entries ih =>
    obtain ⟨k, v⟩ := e
    by_cases hk : k = key
    · simp [put, keys, hk]
    · simp only [keys] at ih
      simp only [put, if_neg hk, keys, List.map_cons, ih, List.mem_cons, Ne.symm hk, false_or]
      by_cases hmem : key ∈ entries.map Prod.fst <;> simp [hmem]

theorem mem_keys_put :
    other ∈ keys (put key value entries) ↔ other = key ∨ other ∈ keys entries := by
  rw [keys_put]
  split_ifs with h
  · exact ⟨.inr, fun ho => ho.elim (fun ho => ho ▸ h) id⟩
  · rw [List.mem_append, List.mem_singleton, or_comm]

theorem nodup_keys_put (h : (keys entries).Nodup) : (keys (put key value entries)).Nodup := by
  rw [keys_put]
  split_ifs with hk
  · exact h
  · rw [← List.concat_eq_append]
    exact h.concat hk

theorem mem_of_mem_put {e : String × α} (h : e ∈ put key value entries) :
    e = (key, value) ∨ e ∈ entries := by
  induction entries with
  | nil => exact .inl (by simpa [put] using h)
  | cons x entries ih =>
    obtain ⟨k, v⟩ := x
    rw [put] at h
    split_ifs at h with hk
    · exact (List.mem_cons.1 h).imp_right (List.mem_cons_of_mem _)
    · obtain rfl | h := List.mem_cons.1 h
      · exact .inr List.mem_cons_self
      · exact (ih h).imp_right (List.mem_cons_of_mem _)

/-- Putting changes what stands under its own key only. -/
theorem lookup_put (key : String) (value : α) (entries : List (String × α)) (other : String) :
    lookup other (put key value entries) =
      if other = key then some value else lookup other entries := by
  induction entries with
  | nil => simp [put, lookup, eq_comm]
  | cons e entries ih =>
    obtain ⟨k, v⟩ := e
    by_cases hk : k = key
    · subst hk
      by_cases ho : k = other
      · simp [put, lookup, ho]
      · simp [put, lookup, ho, Ne.symm ho]
    · simp only [put, if_neg hk, lookup, ih]
      by_cases ho : k = other
      · subst ho
        simp [hk]
      · simp [ho]

theorem put_of_notMem (h : key ∉ keys entries) :
    put key value entries = entries ++ [(key, value)] := by
  induction entries with
  | nil => rfl
  | cons e entries ih =>
    obtain ⟨k, v⟩ := e
    rw [keys, List.map_cons, List.mem_cons, not_or] at h
    rw [put, if_neg (Ne.symm h.1), ih h.2, List.cons_append]

/-- New keys come to the end, one after the other. -/
theorem foldl_put_of_nodup {kept : List (String × α)} (h : (keys (kept ++ entries)).Nodup) :
    entries.foldl (fun kept (k, v) => put k v kept) kept = kept ++ entries := by
  induction entries generalizing kept with
  | nil => rw [List.foldl_nil, List.append_nil]
  | cons e entries ih =>
    obtain ⟨k, v⟩ := e
    have hnew : k ∉ keys kept := fun hmem => by
      rw [keys, List.map_append, List.map_cons] at h
      exact (List.nodup_append.1 h).2.2 k hmem k List.mem_cons_self rfl
    have hstep : kept ++ [(k, v)] ++ entries = kept ++ (k, v) :: entries := by simp
    rw [List.foldl_cons]
    simp only [put_of_notMem hnew]
    rw [ih (by rwa [hstep]), hstep]

/-- Different keys are all kept, in their order. -/
theorem dropRepeated_of_nodup (h : (keys entries).Nodup) : dropRepeated entries = entries :=
  foldl_put_of_nodup h

/-! ### What comes of the values -/

/-- The entries with what comes of their values, if something comes of all of them. -/
def mapValues? {β : Type} (f : α → Option β) (entries : List (String × α)) :
    Option (List (String × β)) :=
  entries.mapM fun entry => (f entry.2).map fun v => (entry.1, v)

theorem mapValues?_nil {β : Type} (f : α → Option β) : mapValues? f [] = some [] := rfl

theorem mapValues?_cons {β : Type} (f : α → Option β) (e : String × α)
    (entries : List (String × α)) :
    mapValues? f (e :: entries) =
      (f e.2).bind fun v => (mapValues? f entries).map ((e.1, v) :: ·) := by
  rw [mapValues?, List.mapM_cons]
  rcases f e.2 with _ | v
  · rfl
  · rcases hrest : mapValues? f entries with _ | rest <;> rw [mapValues?] at hrest <;> simp [hrest]

theorem keys_of_mapValues? {β : Type} {f : α → Option β} {results : List (String × β)}
    (h : mapValues? f entries = some results) : keys results = keys entries := by
  induction entries generalizing results with
  | nil =>
    obtain rfl := Option.some.inj h
    rfl
  | cons e entries ih =>
    rw [mapValues?_cons] at h
    obtain ⟨v, -, hresults⟩ := Option.bind_eq_some_iff.1 h
    obtain ⟨rest, hrest, rfl⟩ := Option.map_eq_some_iff.1 hresults
    rw [keys, keys, List.map_cons, List.map_cons, ← keys, ← keys, ih hrest]

/-- One step after the other for all entries is both steps for each entry. -/
theorem mapValues?_bind {β γ : Type} (f : α → Option β) (g : β → Option γ)
    (entries : List (String × α)) :
    (mapValues? f entries).bind (mapValues? g) = mapValues? (fun v => (f v).bind g) entries := by
  induction entries with
  | nil => rfl
  | cons e entries ih =>
    rw [mapValues?_cons, mapValues?_cons, ← ih]
    rcases f e.2 with _ | v
    · rfl
    rcases mapValues? f entries with _ | rest
    · simp
    · simp [mapValues?_cons]

theorem mapValues?_map {β γ : Type} (f : β → Option γ) (g : α → β) (entries : List (String × α)) :
    mapValues? f (entries.map fun e => (e.1, g e.2)) = mapValues? (fun v => f (g v)) entries := by
  rw [mapValues?, List.mapM_map]
  rfl

theorem mapValues?_of_forall {β : Type} {f : α → Option β} {g : α → β}
    (h : ∀ e ∈ entries, f e.2 = some (g e.2)) :
    mapValues? f entries = some (entries.map fun e => (e.1, g e.2)) := by
  induction entries with
  | nil => rfl
  | cons e entries ih =>
    obtain ⟨he, hothers⟩ := List.forall_mem_cons.1 h
    rw [mapValues?_cons, he, ih hothers]
    rfl

/-- Nothing changes if and only if no value does. -/
theorem mapValues?_eq_none {β : Type} {f : α → Option β} {e : String × α} (he : e ∈ entries)
    (h : f e.2 = none) : mapValues? f entries = none := by
  induction entries with
  | nil => cases he
  | cons first entries ih =>
    rw [mapValues?_cons]
    obtain rfl | hlater := List.mem_cons.1 he
    · rw [h, Option.bind_none]
    · rw [ih hlater]
      rcases f first.2 with _ | v <;> rfl

theorem mapValues?_eq_self {f : α → Option α} :
    mapValues? f entries = some entries ↔ ∀ e ∈ entries, f e.2 = some e.2 := by
  induction entries with
  | nil => simp [mapValues?]
  | cons e entries ih =>
    rw [mapValues?_cons, List.forall_mem_cons, ← ih]
    rcases f e.2 with _ | v
    · simp
    · rcases mapValues? f entries with _ | rest
      · simp
      · simp [Prod.ext_iff]

/-! ### In the order of keys -/

/-- The keys rise, so that each stands once. -/
def Sorted (entries : List (String × α)) : Prop := (keys entries).Pairwise (· < ·)

theorem Sorted.nodup (h : Sorted entries) : (keys entries).Nodup := by
  refine List.nodup_iff_pairwise_ne.2 (h.imp fun {a b} hlt => ?_)
  rintro rfl
  exact String.lt_irrefl a hlt

theorem sorted_nil : Sorted ([] : List (String × α)) := List.Pairwise.nil

theorem sorted_map {β : Type} (f : α → β) (h : Sorted entries) :
    Sorted (entries.map fun (k, v) => (k, f v)) := by
  rwa [Sorted, keys, List.map_map, Function.comp_def]

theorem mem_keys_insertSorted :
    other ∈ keys (insertSorted (key, value) entries) ↔ other = key ∨ other ∈ keys entries := by
  induction entries with
  | nil => simp [insertSorted, keys]
  | cons e entries ih =>
    simp only [keys] at ih
    rw [insertSorted]
    split_ifs with hlt heq
    · simp [keys]
    · simp only [keys, List.map_cons, List.mem_cons]
      rw [show key = e.1 from heq]
      tauto
    · simp only [keys, List.map_cons, List.mem_cons, ih]
      tauto

theorem sorted_insertSorted (h : Sorted entries) : Sorted (insertSorted (key, value) entries) := by
  induction entries with
  | nil => simp [Sorted, insertSorted, keys]
  | cons e entries ih =>
    obtain ⟨hfirst, hrest⟩ := List.pairwise_cons.1 h
    rw [insertSorted]
    split_ifs with hlt heq
    · refine List.pairwise_cons.2 ⟨fun k hk => ?_, h⟩
      obtain rfl | hk := List.mem_cons.1 hk
      · exact hlt
      · exact String.lt_trans hlt (hfirst k hk)
    · refine List.pairwise_cons.2 ⟨fun k hk => ?_, hrest⟩
      rw [show key = e.1 from heq]
      exact hfirst k hk
    · refine List.pairwise_cons.2 ⟨fun k hk => ?_, ih hrest⟩
      obtain rfl | hk := mem_keys_insertSorted.1 hk
      -- the new key is neither before the first nor the same
      · have hle : e.1 ≤ k := String.not_lt.1 hlt
        by_contra hn
        exact heq (String.le_antisymm (String.not_lt.1 hn) hle)
      · exact hfirst k hk

/-- Inserting changes what stands under its own key only. -/
theorem lookup_insertSorted (key : String) (value : α) (entries : List (String × α))
    (other : String) :
    lookup other (insertSorted (key, value) entries) =
      if other = key then some value else lookup other entries := by
  induction entries with
  | nil => simp [insertSorted, lookup, eq_comm]
  | cons e entries ih =>
    obtain ⟨k, v⟩ := e
    rw [insertSorted]
    by_cases hlt : key < k
    · by_cases ho : other = key
      · simp [hlt, lookup, ho]
      · simp [hlt, lookup, ho, Ne.symm ho]
    by_cases heq : key = k
    · subst heq
      by_cases ho : other = key
      · simp [lookup, ho]
      · simp [lookup, ho, Ne.symm ho]
    · simp only [hlt, heq, if_false, lookup, ih]
      by_cases ho : k = other
      · subst ho
        simp [Ne.symm heq]
      · simp [ho]

/-- Of entries that are inserted one after the other, the last one of a key counts. -/
theorem lookup_insertAll (key : String) (fields entries : List (String × α)) :
    lookup key (fields.foldl (fun kept entry => insertSorted entry kept) entries) =
      (lookup key fields.reverse).or (lookup key entries) := by
  induction fields generalizing entries with
  | nil => rfl
  | cons field fields ih =>
    obtain ⟨k, v⟩ := field
    rw [List.foldl_cons, ih, lookup_insertSorted, List.reverse_cons, lookup_append, Option.or_assoc]
    by_cases hk : k = key
    · simp [lookup, hk]
    · simp [lookup, hk, Ne.symm hk]

theorem sorted_insertAll (h : Sorted entries) (fields : List (String × α)) :
    Sorted (fields.foldl (fun kept entry => insertSorted entry kept) entries) := by
  induction fields generalizing entries with
  | nil => exact h
  | cons field fields ih => exact ih (sorted_insertSorted h)

theorem lookup_sortedFields (key : String) (fields : List (String × α)) :
    lookup key (sortedFields fields) = lookup key fields.reverse :=
  (lookup_insertAll key fields []).trans (Option.or_none ..)

theorem sorted_sortedFields (fields : List (String × α)) : Sorted (sortedFields fields) :=
  sorted_insertAll sorted_nil fields

/-- Sorted entries are known by what stands under each key. -/
theorem Sorted.ext {entries' : List (String × α)} (h : Sorted entries) (h' : Sorted entries')
    (hlookup : ∀ key, lookup key entries = lookup key entries') : entries = entries' := by
  have hirrefl : Std.Irrefl fun e e' : String × α => e.1 < e'.1 :=
    ⟨fun e => String.lt_irrefl e.1⟩
  have hantisymm : Std.Antisymm fun e e' : String × α => e.1 < e'.1 :=
    ⟨fun e e' hlt hlt' => absurd hlt' (String.lt_asymm hlt)⟩
  refine (List.pairwise_map.1 h).eq_of_mem_iff (List.pairwise_map.1 h') fun ⟨key, v⟩ => ?_
  exact ⟨fun hmem => mem_of_lookup ((hlookup key).symm.trans (lookup_of_mem h.nodup hmem)),
    fun hmem => mem_of_lookup ((hlookup key).trans (lookup_of_mem h'.nodup hmem))⟩

theorem mem_keys_sortedFields {fields : List (String × α)} :
    other ∈ keys (sortedFields fields) ↔ other ∈ keys fields := by
  have hfold (kept : List (String × α)) :
      other ∈ keys (fields.foldl (fun kept entry => insertSorted entry kept) kept) ↔
        other ∈ keys fields ∨ other ∈ keys kept := by
    induction fields generalizing kept with
    | nil => simp [keys]
    | cons entry fields ih =>
      obtain ⟨k, v⟩ := entry
      rw [List.foldl_cons, ih, mem_keys_insertSorted]
      simp only [keys, List.map_cons, List.mem_cons]
      tauto
  simpa [keys, sortedFields] using hfold []

end ServiceScaffold.Keyed
