import ServiceScaffold.Proofs.FilePath

/-!
# Paths of ordinary names

A name that can stand between two slashes is the name of one component, and names with slashes
between them are a path that leads down by these names.

* `FilePath.IsName` : a text that is the name of a component, and nothing else;
* `FilePath.isName_of_mem_components` : the names of all components are such texts;
* `FilePath.components_ofNames` : names with slashes between them are the path of these names;
* `FilePath.components_join_names` : joining a path of names adds the names;
* `FilePath.descend`, `FilePath.components_descend` : the path that joins names one by one;
* `FilePath.GoesDown` : a path goes down from a directory by names;
* `FilePath.exists_names_of_isInner` : after its first component, a path that leads down is one of
  names.
-/

namespace ServiceScaffold

theorem Component.name?_eq_some {c : Component} {name : List Char} :
    c.name? = some name ↔ c = .normal name := by
  cases c <;> simp [Component.name?]

namespace FilePath

open Text

variable {p q : FilePath} {name cs : List Char} {names : List (List Char)}

/-- The text is the name of one component: it holds no slash and counts for something. -/
structure IsName (name : List Char) : Prop where
  noSlash : ∀ c ∈ name, isSlash c = false
  counts : name ∉ [[], ['.'], ['.', '.']]

instance : DecidablePred IsName := fun name =>
  decidable_of_iff (name.any isSlash = false ∧ name ∉ [[], ['.'], ['.', '.']])
    ⟨fun h => ⟨fun c hc => Bool.eq_false_iff.2 (List.any_eq_false.1 h.1 c hc), h.2⟩,
      fun h => ⟨List.any_eq_false.2 fun c hc => Bool.eq_false_iff.1 (h.noSlash c hc), h.counts⟩⟩

namespace IsName

theorem ne_nil (h : IsName name) : name ≠ [] := by
  rintro rfl
  exact h.counts (by simp)

theorem ofPiece? (h : IsName name) : Component.ofPiece? name = some (.normal name) := by
  have hcounts := h.counts
  simp only [List.mem_cons, List.not_mem_nil, or_false, not_or] at hcounts
  simp [Component.ofPiece?, hcounts]

theorem innerOf (h : IsName name) : innerOf name = [.normal name] := by
  rw [FilePath.innerOf, splitOn_eq_self h.noSlash]
  simp [h.ofPiece?]

theorem leading (h : IsName name) : leading ⟨name⟩ = [] := by
  obtain ⟨c, cs, rfl⟩ := List.exists_cons_of_ne_nil h.ne_nil
  have hc : c ≠ '/' := by simpa [isSlash] using h.noSlash c List.mem_cons_self
  have habs : isAbsolute ⟨c :: cs⟩ = false := by simpa [isAbsolute] using hc
  have hhere : startsHere ⟨c :: cs⟩ = false := by
    cases cs with
    | nil =>
      have hdot : c ≠ '.' := by
        rintro rfl
        exact h.counts (by simp)
      simp [startsHere, hdot]
    | cons x rest =>
      have hx : x ≠ '/' := by simpa [isSlash] using h.noSlash x (by simp)
      simp [hx]
  rw [FilePath.leading, habs, hhere]
  rfl

theorem components (h : IsName name) : components ⟨name⟩ = [.normal name] := by
  rw [components_eq, h.leading, h.innerOf, List.nil_append]

/-- A name with a text added that holds no slash is a name, unless it is a double dot. -/
theorem append (h : IsName name) (hcs : ∀ c ∈ cs, isSlash c = false) (hlong : cs ≠ ['.']) :
    IsName (name ++ cs) := by
  refine ⟨fun c hc => ?_, ?_⟩
  · exact (List.mem_append.1 hc).elim (h.noSlash c) (hcs c)
  · have hcounts := h.counts
    simp only [List.mem_cons, List.not_mem_nil, or_false, not_or] at hcounts ⊢
    obtain ⟨hnil, hdot, hdots⟩ := hcounts
    refine ⟨by simp [hnil], ?_, ?_⟩
    · rw [List.append_eq_singleton_iff]
      simp [hnil, hdot]
    · rw [List.append_eq_cons_iff]
      rintro (⟨rfl, -⟩ | ⟨rest, rfl, hrest⟩)
      · exact hnil rfl
      · rw [eq_comm, List.append_eq_singleton_iff] at hrest
        obtain ⟨rfl, rfl⟩ | ⟨rfl, rfl⟩ := hrest
        · exact hlong rfl
        · exact hdots rfl

end IsName

/-! ### Components that are names -/

/-- The names of all components are names. -/
theorem isName_of_mem_components (h : .normal name ∈ p.components) : IsName name := by
  rw [components_eq] at h
  obtain hleading | hinner := List.mem_append.1 h
  · unfold leading at hleading
    split_ifs at hleading <;> simp at hleading
  · obtain ⟨piece, hpiece, hof⟩ := List.mem_filterMap.1 hinner
    unfold Component.ofPiece? at hof
    split_ifs at hof with hnone hparent
    · simp at hof
    · obtain rfl : piece = name := by simpa using hof
      refine ⟨not_mem_of_mem_splitOn hpiece, ?_⟩
      simp only [List.mem_cons, List.not_mem_nil, or_false, not_or]
      exact ⟨fun hnil => hnone (.inl hnil), fun hdot => hnone (.inr hdot), hparent⟩

/-- A path of names has nothing before its pieces. -/
theorem leading_eq_nil (h : p.components = names.map .normal) : p.leading = [] := by
  rw [components_eq] at h
  have hnormal : ∀ c ∈ p.leading, ∃ name, Component.normal name = c := fun c hc => by
    have hmem : c ∈ names.map Component.normal := h ▸ List.mem_append_left _ hc
    obtain ⟨name, -, hname⟩ := List.mem_map.1 hmem
    exact ⟨name, hname⟩
  unfold leading at hnormal ⊢
  split_ifs at hnormal ⊢
  · simp at hnormal
  · simp at hnormal
  · rfl

/-- Joining a path of names adds the names. -/
theorem components_join_names (dir : FilePath) (h : q.components = names.map .normal) :
    (dir.join q).components = dir.components ++ names.map .normal := by
  rw [components_join_of_leading dir (leading_eq_nil h), h]

theorem components_join_name (dir : FilePath) {name : List Char}
    (h : q.components = [.normal name]) :
    (dir.join q).components = dir.components ++ [.normal name] := by
  have hnames : q.components = [name].map .normal := h
  exact components_join_names dir hnames

/-- Names with slashes between them are the path of these names. -/
theorem components_ofNames (hne : names ≠ []) (h : ∀ name ∈ names, IsName name) :
    (FilePath.mk (joinWith ['/'] names)).components = names.map .normal := by
  induction names with
  | nil => exact absurd rfl hne
  | cons name names ih =>
    have hname := h name List.mem_cons_self
    by_cases hrest : names = []
    · subst hrest
      exact hname.components
    · have htail := ih hrest fun n hn => h n (List.mem_cons_of_mem _ hn)
      have hinner : innerOf (joinWith ['/'] names) = names.map .normal := by
        rw [components_eq, leading_eq_nil htail, List.nil_append] at htail
        exact htail
      rw [joinWith_cons hrest, List.append_assoc, List.singleton_append, components_eq,
        leading_append_slash hname.ne_nil, hname.leading, innerOf_append_slash, hname.innerOf,
        hinner]
      rfl

/-- A text with slashes tells its names. -/
theorem joinWith_names_inj {more : List (List Char)} (hne : names ≠ []) (hne' : more ≠ [])
    (h : ∀ name ∈ names, IsName name) (h' : ∀ name ∈ more, IsName name)
    (hjoin : joinWith ['/'] names = joinWith ['/'] more) : names = more := by
  have hcomponents := components_ofNames hne h
  rw [hjoin, components_ofNames hne' h'] at hcomponents
  exact (List.map_injective_iff.2 (fun _ _ => Component.normal.inj) hcomponents).symm

/-- The path that leads down from a directory by names. -/
def descend (dir : FilePath) (names : List (List Char)) : FilePath :=
  names.foldl (fun p name => p.join ⟨name⟩) dir

theorem descend_concat (dir : FilePath) (names : List (List Char)) (name : List Char) :
    dir.descend (names ++ [name]) = (dir.descend names).join ⟨name⟩ := by
  simp [descend]

theorem components_descend (dir : FilePath) {names : List (List Char)}
    (h : ∀ name ∈ names, IsName name) :
    (dir.descend names).components = dir.components ++ names.map .normal := by
  induction names using List.reverseRecOn with
  | nil => simp [descend]
  | append_singleton names name ih =>
    have hname := h name (by simp)
    have hnames := ih fun n hn => h n (List.mem_append_left _ hn)
    rw [descend_concat, components_join_name _ hname.components, hnames, List.map_append,
      List.append_assoc]
    rfl

/-- The path goes down from the directory by names. -/
def GoesDown (dir p : FilePath) : Prop :=
  ∃ names : List (List Char), p.components = dir.components ++ names.map .normal

/-- The dot of a relative path is its first component. -/
theorem exists_names_of_isInner {base : FilePath} {more : List Component} (hbase : base.chars ≠ [])
    (hq : q.components = base.components ++ more) (hmore : more.all Component.isInner = true) :
    ∃ names : List (List Char), more = names.map .normal := by
  have hinner : ∀ c ∈ more, c ∈ innerOf q.chars := fun c hc => by
    obtain ⟨first, rest, hfirst⟩ := List.exists_cons_of_ne_nil (components_ne_nil hbase)
    have htail : c ∈ q.components.tail := by
      rw [hq, hfirst]
      exact List.mem_append_right _ hc
    rw [components_eq] at htail
    unfold leading at htail
    split_ifs at htail
    · exact htail
    · exact htail
    · exact List.mem_of_mem_tail htail
  have hnormal : ∀ c ∈ more, ∃ name, c = .normal name := fun c hc => by
    obtain ⟨piece, -, hof⟩ := List.mem_filterMap.1 (hinner c hc)
    unfold Component.ofPiece? at hof
    split_ifs at hof
    · obtain rfl := Option.some.inj hof
      exact absurd (List.all_eq_true.1 hmore _ hc) (by decide)
    · exact ⟨piece, (Option.some.inj hof).symm⟩
  clear hq hmore hinner
  induction more with
  | nil => exact ⟨[], rfl⟩
  | cons c more ih =>
    obtain ⟨names, rfl⟩ := ih fun c hc => hnormal c (List.mem_cons_of_mem _ hc)
    obtain ⟨name, rfl⟩ := hnormal c List.mem_cons_self
    exact ⟨name :: names, rfl⟩

end FilePath

end ServiceScaffold
