import Mathlib.Tactic.SplitIfs
import ServiceScaffold.Proofs.FilePath.Order
import ServiceScaffold.Store.Memory

/-!
# Laws of files in memory

What writing a file and reading one do to the texts of a store in memory, and to the number of times
that its files were read.

* `MemoryStore.contents_insert` : writing changes the text at its own place only;
* `MemoryStore.contents_read` : reading changes no text;
* `MemoryStore.InOrder.sum_put` : a number that is put takes the place of the one that stands there;
* `MemoryStore.totalReads_read` : **a read that succeeds is counted once.**
-/

namespace ServiceScaffold

namespace FilePath

variable {p q r : FilePath}

theorem same_iff : p.same q = true ↔ p.components = q.components := by
  rw [FilePath.same, beq_iff_eq]

theorem same_self (p : FilePath) : p.same p = true := same_iff.2 rfl

theorem same_symm (h : p.same q = true) : q.same p = true := same_iff.2 (same_iff.1 h).symm

theorem same_trans (h : p.same q = true) (h' : q.same r = true) : p.same r = true :=
  same_iff.2 ((same_iff.1 h).trans (same_iff.1 h'))

/-- What is the same place comes before the same paths. -/
theorem before_congr (h : p.same q = true) (r : FilePath) : p.before r = q.before r := by
  rw [before, before, same_iff.1 h]

end FilePath

namespace MemoryStore

/-- Putting changes what stands at its own place only. -/
theorem lookup_put {α : Type} (path : FilePath) (value : α) (entries : List (FilePath × α))
    (q : FilePath) :
    lookup q (put path value entries) = if q.same path then some value else lookup q entries := by
  induction entries with
  | nil => rfl
  | cons entry entries ih =>
    obtain ⟨p, v⟩ := entry
    rw [put]
    by_cases hsame : path.same p = true
    · have hq : q.same p = q.same path := by
        rw [FilePath.same, FilePath.same, FilePath.same_iff.1 hsame]
      rw [if_pos hsame, lookup, lookup, hq]
      by_cases hqp : q.same path = true
      · rw [if_pos hqp, if_pos hqp]
      · rw [if_neg hqp, if_neg hqp, if_neg hqp]
    rw [if_neg hsame]
    by_cases hbefore : path.before p = true
    · rw [if_pos hbefore, lookup]
    · rw [if_neg hbefore, lookup, lookup, ih]
      by_cases hqp : q.same p = true
      -- what is the place of `p` is not that of `path`
      · have hq : ¬q.same path = true := by
          rw [FilePath.same_iff] at hsame hqp ⊢
          exact fun hq => hsame (hq.symm.trans hqp)
        rw [if_pos hqp, if_neg hq, if_pos hqp]
      · rw [if_neg hqp, if_neg hqp]

section

variable (s : MemoryStore) (path q : FilePath)

/-- Writing changes the text at its own place only. -/
theorem contents_insert (text : String) :
    (s.insert path text).contents q = if q.same path then some text else s.contents q :=
  lookup_put path text s.texts q

theorem result_read : (s.read path).1 =
    match s.contents path with
    | some text => .ok text
    | none => .error (.unknown path) := by
  unfold read
  rcases s.contents path with _ | _ <;> rfl

/-- Reading changes no text. -/
theorem contents_read : (s.read path).2.contents q = s.contents q := by
  unfold read
  split <;> rfl

end

/-! ### Counting reads -/

/-- No entry stands behind one at the same place or at one that comes later. -/
def InOrder {α : Type} (entries : List (FilePath × α)) : Prop :=
  entries.Pairwise fun e e' => e'.1.before e.1 = false ∧ e'.1.same e.1 = false

section

variable {α : Type} {path : FilePath} {value : α} {entries : List (FilePath × α)}

theorem lookup_eq_none (h : ∀ e ∈ entries, path.same e.1 = false) : lookup path entries = none := by
  induction entries with
  | nil => rfl
  | cons e entries ih =>
    obtain ⟨hfirst, hrest⟩ := List.forall_mem_cons.1 h
    rw [lookup, hfirst]
    exact ih hrest

/-- The paths after putting are the one that is put and those that were there. -/
theorem mem_put {e : FilePath × α} (h : e ∈ put path value entries) :
    e.1 = path ∨ ∃ e' ∈ entries, e'.1 = e.1 := by
  induction entries with
  | nil => exact .inl (congrArg Prod.fst (List.mem_singleton.1 h))
  | cons entry entries ih =>
    obtain ⟨p, v⟩ := entry
    rw [put] at h
    split_ifs at h
    · obtain rfl | h := List.mem_cons.1 h
      · exact .inr ⟨(p, v), List.mem_cons_self, rfl⟩
      · exact .inr ⟨e, List.mem_cons_of_mem _ h, rfl⟩
    · obtain rfl | h := List.mem_cons.1 h
      · exact .inl rfl
      · exact .inr ⟨e, h, rfl⟩
    · obtain rfl | h := List.mem_cons.1 h
      · exact .inr ⟨(p, v), List.mem_cons_self, rfl⟩
      · obtain hpath | ⟨e', he', heq⟩ := ih h
        · exact .inl hpath
        · exact .inr ⟨e', List.mem_cons_of_mem _ he', heq⟩

/-- A path that comes before the first entry of a list in order stands nowhere in it. -/
theorem InOrder.not_same {e : FilePath × α} (h : InOrder (e :: entries))
    (hbefore : path.before e.1 = true) : ∀ e' ∈ entries, path.same e'.1 = false := by
  refine fun e' he' => Bool.eq_false_iff.2 fun hsame => ?_
  have hlater := (List.rel_of_pairwise_cons h he').1
  rw [← FilePath.before_congr hsame, hbefore] at hlater
  cases hlater

/-- Putting keeps the order. -/
theorem InOrder.put (h : InOrder entries) (path : FilePath) (value : α) :
    InOrder (MemoryStore.put path value entries) := by
  induction entries with
  | nil => exact List.pairwise_singleton _ _
  | cons entry entries ih =>
    obtain ⟨p, v⟩ := entry
    obtain ⟨hfirst, hrest⟩ := List.pairwise_cons.1 h
    rw [MemoryStore.put]
    split_ifs with hsame hbefore
    · exact List.pairwise_cons.2 ⟨hfirst, hrest⟩
    · refine List.pairwise_cons.2 ⟨fun e he => ?_, h⟩
      have hsymm {q : FilePath} : q.same path = path.same q := Bool.beq_comm ..
      obtain rfl | he := List.mem_cons.1 he
      · exact ⟨FilePath.before_asymm hbefore, by rw [hsymm, Bool.eq_false_iff.2 hsame]⟩
      · refine ⟨Bool.eq_false_iff.2 fun hearlier => ?_, by rw [hsymm, h.not_same hbefore e he]⟩
        have hthrough := FilePath.before_trans hearlier hbefore
        rw [(hfirst e he).1] at hthrough
        cases hthrough
    · refine List.pairwise_cons.2 ⟨fun e he => ?_, ih hrest⟩
      obtain hpath | ⟨e', he', heq⟩ := mem_put he
      · rw [hpath]
        exact ⟨Bool.eq_false_iff.2 hbefore, Bool.eq_false_iff.2 hsame⟩
      · rw [← heq]
        exact hfirst e' he'

end

/-- A number that is put takes the place of the one that stands there. -/
theorem InOrder.sum_put {entries : List (FilePath × Nat)} (h : InOrder entries) (path : FilePath)
    (n : Nat) : ((MemoryStore.put path n entries).map Prod.snd).foldr (· + ·) 0 +
      (lookup path entries).getD 0 = (entries.map Prod.snd).foldr (· + ·) 0 + n := by
  induction entries with
  | nil => simp [MemoryStore.put, lookup]
  | cons entry entries ih =>
    obtain ⟨p, v⟩ := entry
    have hrest := ih (List.pairwise_cons.1 h).2
    rw [MemoryStore.put, lookup]
    by_cases hsame : path.same p = true
    · simp only [hsame, if_true, List.map_cons, List.foldr_cons, Option.getD_some]
      omega
    rw [if_neg hsame, if_neg hsame]
    by_cases hbefore : path.before p = true
    · rw [if_pos hbefore, lookup_eq_none (h.not_same hbefore)]
      simp only [List.map_cons, List.foldr_cons, Option.getD_none]
      omega
    · rw [if_neg hbefore]
      simp only [List.map_cons, List.foldr_cons]
      omega

variable {s : MemoryStore} {path : FilePath}

theorem read_of_contents {text : String} (h : s.contents path = some text) : s.read path =
    (.ok text, { s with reads := put path (s.readCount path + 1) s.reads }) := by
  rw [read, h]

/-- A read that succeeds is counted once. -/
theorem totalReads_read (hs : InOrder s.reads) {text : String} (h : s.contents path = some text) :
    (s.read path).2.totalReads = s.totalReads + 1 := by
  have hsum := hs.sum_put path (s.readCount path + 1)
  rw [read_of_contents h]
  change ((put path (s.readCount path + 1) s.reads).map Prod.snd).foldr (· + ·) 0 = _ + 1
  change _ + s.readCount path = s.totalReads + _ at hsum
  omega

end MemoryStore

end ServiceScaffold
