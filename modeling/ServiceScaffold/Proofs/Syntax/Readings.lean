import ServiceScaffold.Proofs.Syntax.ForeseenReading

/-!
# Readings with the nodes that they make

What a text is read as, wherever it stands: how much of it a rule takes, and which nodes it makes
of it.  There is one statement for each way to put rules together, so that the reading of a text is
put together from the readings of its pieces.

* `Makes` : reading takes a piece of a text and makes certain nodes;
* `Fails` : reading fails;
* `Makes.seq`, `Makes.node`, `makes_any`, `makes_accept` : rules from their parts;
* `MakesMany` : the same for repetitions, item by item;
* `fails_of_foresee`, `makes_of_foresee` : what foresight settles.
-/

namespace ServiceScaffold.Syntax

/-! ### Nodes -/

/-- The nodes are comments. -/
def AllComments (nodes : List Node) : Prop := ∀ n ∈ nodes, n.IsComment

/-- A node that has been read from a text, after the comments at the start of it. -/
def Lone (cs : List Char) (P : Node → Prop) (nodes : List Node) : Prop :=
  ∃ comments n, nodes = comments ++ [n] ∧ AllComments comments ∧
    (startsClear cs = true → comments = []) ∧ P n

/-- Some nodes and others after them. -/
def Then (P Q : List Node → Prop) (nodes : List Node) : Prop :=
  ∃ front back, nodes = front ++ back ∧ P front ∧ Q back

theorem Lone.mono {cs : List Char} {P Q : Node → Prop} {nodes : List Node} (h : Lone cs P nodes)
    (hPQ : ∀ n, P n → Q n) : Lone cs Q nodes := by
  obtain ⟨comments, n, rfl, hcomments, hclear, hn⟩ := h
  exact ⟨comments, n, rfl, hcomments, hclear, hPQ n hn⟩

/-- What a node is by itself; it plays no part so far. -/
structure Node.Is (kind : NodeKind) (n : Node) : Prop where
  kind : n.kind = kind
  field : n.field = none
  missing : n.missing = false

/-- The text of the node is what has been read for it: the text `cs` up to `rest`, without the
blanks and comments before the first token. -/
def Node.Takes (source cs rest : List Char) (n : Node) : Prop :=
  ∀ piece, (Sight.ofText cs).body = piece ++ rest → n.text source = piece

/-! ### Readings -/

section

variable {source : List Char}

/-- Reading takes the text `cs` up to `rest`, and makes nodes with the property `P`. -/
def Makes (source : List Char) (read : Scan → Reading) (cs rest : List Char)
    (P : List Node → Prop) : Prop :=
  ∀ s : Scan, s.Sees source cs [] → s.isLenient = false →
    ∃ t, read s = .ok t ∧ t.Sees source rest [] ∧ t.isLenient = false ∧
      ∃ made, t.children = made.reverse ++ s.children ∧ P made

/-- Reading the text fails. -/
def Fails (source : List Char) (read : Scan → Reading) (cs : List Char) : Prop :=
  ∀ s : Scan, s.Sees source cs [] → s.isLenient = false → ∃ reach, read s = .error reach

variable {read : Scan → Reading} {cs mid rest k : List Char} {P Q : List Node → Prop}
  {gs gs' : List Sign}

theorem Scan.Sees.rest_eq {s : Scan} (h : s.Sees source cs []) : s.rest = cs := by
  have hsigns := h.signs
  cases hsigns
  rfl

/-- A state before a text with signs. -/
theorem Scan.Sees.withSigns {s : Scan} (h : s.Sees source cs []) (hsigns : Signs k cs gs) :
    s.Sees source k gs :=
  ⟨h.toAgrees, h.rest_eq.symm ▸ hsigns⟩

/-- A state before a text, whatever its signs. -/
theorem Scan.Sees.atRest {s : Scan} (h : s.Sees source k gs) : s.Sees source s.rest [] :=
  ⟨h.toAgrees, .nil⟩

/-- The comments before the next token, in order. -/
theorem Scan.Sees.allComments {s : Scan} (h : s.Sees source cs []) :
    AllComments (s.next.gap.far ++ s.next.gap.near).reverse :=
  fun n hn => h.comments n (List.mem_reverse.1 hn)

theorem Scan.Sees.noComments {s : Scan} (h : s.Sees source cs []) (hclear : startsClear cs = true) :
    (s.next.gap.far ++ s.next.gap.near).reverse = [] := by
  rw [h.clear (h.rest_eq.symm ▸ hclear), List.reverse_nil]

theorem Makes.mono (h : Makes source read cs rest P) (hPQ : ∀ made, P made → Q made) :
    Makes source read cs rest Q := by
  intro s hs hlenient
  obtain ⟨t, ht, hsees, hsame, made, hmade, hP⟩ := h s hs hlenient
  exact ⟨t, ht, hsees, hsame, made, hmade, hPQ made hP⟩

/-! ### What foresight settles -/

/-- The only ending that is foreseen. -/
theorem EndsIn.single {s : Scan} {r : Reading} {e : Ending}
    (h : EndsIn source k s gs r [e]) : e.Of source k s gs r := by
  obtain ⟨d, hd, hof⟩ := h
  obtain rfl := List.mem_singleton.1 hd
  exact hof

theorem fails_of_foresee (source : List Char) (rule : Rule Goal) {fuel fuel' : Nat}
    (hsigns : Signs k cs gs) (hfuel : fuel ≤ fuel')
    (hforesee : rule.foresee (foreseeGoal grammar fuel) false gs = some [none]) :
    Fails source (rule.read (readGoal grammar fuel')) cs := by
  intro s hs hlenient
  exact (Rule.ends_foresee (fun g s gs ends h hends => ends_foreseeGoal grammar hfuel g h hends)
    rule (hs.withSigns hsigns) hlenient hforesee).single

/-- Reading as foreseen makes quiet nodes, and comments only if it takes no token. -/
theorem makes_of_foresee (source : List Char) {rule : Rule Goal} {fuel fuel' : Nat}
    (hsigns : Signs k cs gs) (hfuel : fuel ≤ fuel')
    (hforesee : rule.foresee (foreseeGoal grammar fuel) false gs = some [some gs']) :
    Makes source (rule.read (readGoal grammar fuel')) cs (afterTokens (gs.length - gs'.length) cs)
      fun made => (∀ n ∈ made, n.IsQuiet) ∧ (gs'.length = gs.length → AllComments made) := by
  intro s hs hlenient
  obtain ⟨t, ht, hfollows⟩ := (Rule.ends_foresee
    (fun g s gs ends h hends => ends_foreseeGoal grammar hfuel g h hends)
    rule (hs.withSigns hsigns) hlenient hforesee).single
  obtain ⟨made, hmade, hquiet, -, hcomments⟩ := hfollows.nodes
  refine ⟨t, ht, ?_, hfollows.lenient.trans hlenient, made.reverse, by simpa using hmade,
    by simpa using hquiet, fun heq n hn => hcomments heq n (List.mem_reverse.1 hn)⟩
  have hrest := hfollows.text
  rw [hs.rest_eq] at hrest
  exact hrest ▸ hfollows.sees.atRest

/-- A rule that takes nothing here. -/
theorem passes_of_foresee (source : List Char) (rule : Rule Goal) {fuel fuel' : Nat}
    (hsigns : Signs k cs gs) (hfuel : fuel ≤ fuel')
    (hforesee : rule.foresee (foreseeGoal grammar fuel) false gs = some [some gs]) :
    Makes source (rule.read (readGoal grammar fuel')) cs cs AllComments := by
  have h := makes_of_foresee source hsigns hfuel hforesee
  rw [Nat.sub_self, afterTokens] at h
  exact h.mono fun made hmade => hmade.2 rfl

/-! ### Rules from their parts -/

variable {self : Goal → Scan → Reading} {first second rule : Rule Goal}

theorem Makes.seq (h : Makes source (first.read self) cs mid P)
    (h' : Makes source (second.read self) mid rest Q) :
    Makes source ((Rule.seq first second).read self) cs rest (Then P Q) := by
  intro s hs hlenient
  obtain ⟨t, ht, hsees, hsame, made, hmade, hP⟩ := h s hs hlenient
  obtain ⟨u, hu, hsees', hsame', made', hmade', hQ⟩ := h' t hsees hsame
  refine ⟨u, ?_, hsees', hsame', made ++ made', ?_, made, made', rfl, hP, hQ⟩
  · simp only [Rule.read, ht]
    exact hu
  · rw [hmade', hmade, List.reverse_append, List.append_assoc]

/-- Rules in a row are read the same way however they are grouped. -/
theorem Makes.regroup {third : Rule Goal}
    (h : Makes source ((Rule.seq first (.seq second third)).read self) cs rest P) :
    Makes source ((Rule.seq (.seq first second) third).read self) cs rest P := by
  intro s hs hlenient
  obtain ⟨t, ht, hmakes⟩ := h s hs hlenient
  refine ⟨t, ?_, hmakes⟩
  rw [← ht]
  simp only [Rule.read]
  cases first.read self s <;> rfl

theorem Makes.choice_first (h : Makes source (first.read self) cs rest P) :
    Makes source ((Rule.choice first second).read self) cs rest P := by
  intro s hs hlenient
  obtain ⟨t, ht, hmakes⟩ := h s hs hlenient
  exact ⟨t, by simp only [Rule.read, ht], hmakes⟩

theorem Makes.choice_second (hfails : Fails source (first.read self) cs)
    (h : Makes source (second.read self) cs rest P) :
    Makes source ((Rule.choice first second).read self) cs rest P := by
  intro s hs hlenient
  obtain ⟨reach, hreach⟩ := hfails s hs hlenient
  have hsame : ({ s with reach := reach } : Scan).Sees source cs [] :=
    hs.ofSame rfl rfl rfl
  obtain ⟨t, ht, hmakes⟩ := h _ hsame hlenient
  exact ⟨t, by simp only [Rule.read, hreach, ht], hmakes⟩

/-- The first rule of a list that fits. -/
theorem makes_any (before after : List (Rule Goal)) (hbefore : ∀ r ∈ before, Fails source
    (r.read self) cs) (h : Makes source (rule.read self) cs rest P) :
    Makes source ((Rule.any (before ++ rule :: after)).read self) cs rest P := by
  induction before with
  | nil =>
    rcases after with _ | ⟨r, after⟩
    · exact h
    · exact h.choice_first
  | cons r before ih =>
    have hrest := ih fun r hr => hbefore r (List.mem_cons_of_mem _ hr)
    rcases hmore : before ++ rule :: after with _ | ⟨r', more⟩
    · simp at hmore
    · rw [List.cons_append, hmore]
      rw [hmore] at hrest
      exact hrest.choice_second (hbefore r List.mem_cons_self)

theorem Makes.opt (h : Makes source (rule.read self) cs rest P) :
    Makes source ((Rule.opt rule).read self) cs rest P := h.choice_first

theorem makes_empty : Makes source (Rule.empty.read self) cs cs (· = []) :=
  fun s hs hlenient => ⟨s, rfl, hs, hlenient, [], by simp, rfl⟩

theorem Fails.opt (h : Fails source (rule.read self) cs) :
    Makes source ((Rule.opt rule).read self) cs cs (· = []) :=
  .choice_second h makes_empty

theorem Fails.notAhead (h : Fails source (rule.read self) cs) :
    Makes source ((Rule.notAhead rule).read self) cs cs (· = []) := by
  intro s hs hlenient
  obtain ⟨reach, hreach⟩ := h s hs hlenient
  exact ⟨s, by simp only [Rule.read, hreach], hs, hlenient, [], by simp, rfl⟩

theorem Makes.breaking {breaks : Bool} (h : Makes source (rule.read self) cs rest P) :
    Makes source ((Rule.breaking breaks rule).read self) cs rest P := by
  intro s hs hlenient
  have hsame : ({ s with breaks := breaks } : Scan).Sees source cs [] :=
    hs.ofSame rfl rfl rfl
  obtain ⟨t, ht, hsees, hmakes⟩ := h _ hsame hlenient
  exact ⟨{ t with breaks := s.breaks }, by simp only [Rule.read, ht]; rfl,
    hsees.ofSame rfl rfl rfl, hmakes⟩

theorem Makes.part (field : FieldName) {P : Node → Prop}
    (h : Makes source (rule.read self) cs rest (Lone cs P)) :
    Makes source ((Rule.part field rule).read self) cs rest
      (Lone cs fun n => ∃ m, P m ∧ n = m.withField field) := by
  intro s hs hlenient
  obtain ⟨t, ht, hsees, hsame, made, hmade, comments, n, rfl, hcomments, hclear, hn⟩ :=
    h s hs hlenient
  rw [List.reverse_append] at hmade
  refine ⟨{ t with children := n.withField field :: (comments.reverse ++ s.children) }, ?_,
    hsees.ofSame rfl rfl rfl, hsame, comments ++ [n.withField field], by simp, comments, _, rfl,
    hcomments, hclear, n, hn, rfl⟩
  simp only [Rule.read, ht]
  rw [show Except.map _ (Except.ok t) = Except.ok _ from rfl, hmade]
  rfl

theorem Makes.mended (h : Makes source (rule.read self) cs rest P) :
    Makes source ((Rule.mended rule).read self) cs rest P := by
  intro s hs hlenient
  obtain ⟨t, ht, hmakes⟩ := h s hs hlenient
  exact ⟨t, by simp only [Rule.read, hlenient, Bool.false_eq_true, if_false, ht], hmakes⟩

theorem Makes.goal (self : Goal → Scan → Reading) {g : Goal} (h : Makes source (self g) cs rest P) :
    Makes source ((Rule.goal g).read self) cs rest P := h

/-- A goal is read by its rule. -/
theorem Makes.ofRule {g : Goal} {fuel : Nat}
    (h : Makes source ((grammar g).read (readGoal grammar fuel)) cs rest P) :
    Makes source (readGoal grammar (fuel + 1) g) cs rest P := h

/-- What is read for a node becomes its children, and its text is what has been read. -/
theorem makes_node (kind : NodeKind) (h : ∀ s : Scan, s.Sees source cs [] → s.isLenient = false →
      ∃ t, rule.read self { s.pushComments with children := [] } = .ok t ∧ t.Sees source rest [] ∧
        t.isLenient = false ∧ P t.children.reverse) :
    Makes source ((Rule.node kind rule).read self) cs rest
      (Lone cs fun n => n.Is kind ∧ n.Takes source cs rest ∧ P n.children) := by
  intro s hs hlenient
  obtain ⟨t, ht, hsees, hsame, hP⟩ := h s hs hlenient
  refine ⟨s.pushComments.close t kind s.next.start, by simp only [Rule.read, ht]; rfl,
    hsees.ofSame rfl rfl rfl, hsame, (s.next.gap.far ++ s.next.gap.near).reverse ++
      [.mk kind none s.next.start t.stop false t.children.reverse], ?_,
    _, _, rfl, hs.allComments, hs.noComments, ⟨rfl, rfl, rfl⟩, fun piece hpiece => ?_, ?_⟩
  · simp [Scan.close, Scan.pushComments]
  · have hbody : s.next.gap.rest = piece ++ rest := by
      have hsight := congrArg Sight.body hs.sight
      rw [hs.rest_eq] at hsight
      exact hsight.trans hpiece
    have hstart := hs.next.gap.placed
    rw [hbody] at hstart
    exact hstart.slice (hsees.rest_eq ▸ hsees.placed)
  · exact hP

theorem Makes.node (kind : NodeKind) (h : Makes source (rule.read self) cs rest P) :
    Makes source ((Rule.node kind rule).read self) cs rest
      (Lone cs fun n => n.Is kind ∧ n.Takes source cs rest ∧ P n.children) := by
  refine makes_node kind fun s hs hlenient => ?_
  have hinner : ({ s.pushComments with children := [] } : Scan).Sees source cs [] :=
    hs.pushComments.ofSame rfl rfl rfl
  obtain ⟨t, ht, hsees, hsame, made, hmade, hP⟩ := h _ hinner hlenient
  have hchildren : t.children.reverse = made := by rw [hmade]; simp
  exact ⟨t, ht, hsees, hsame, hchildren ▸ hP⟩

/-- A token becomes a node without children. -/
theorem makes_accept (test : Test) {kind : NodeKind}
    (htest : test.holds (Sight.ofText cs).token = true) :
    Makes source (fun s => s.accept test.holds kind) cs (Sight.ofText cs).tail
      (Lone cs fun n => n.Is kind ∧ n.Takes source cs (Sight.ofText cs).tail ∧ n.children = []) := by
  intro s hs hlenient
  have hsight := hs.sight
  rw [hs.rest_eq] at hsight
  have htail : s.next.tail = (Sight.ofText cs).tail := congrArg Sight.tail hsight
  have hpass : test.holds s.next.token = true := by
    rwa [show s.next.token = (Sight.ofText cs).token from congrArg Sight.token hsight]
  have hstop := hs.next.placed
  rw [htail] at hstop
  refine ⟨s.take kind, if_pos hpass, htail ▸ .moveTo (htail ▸ hstop) .nil, hlenient,
    (s.next.gap.far ++ s.next.gap.near).reverse ++
      [.mk kind none s.next.start s.next.stop false []], ?_, _, _, rfl,
    hs.allComments, hs.noComments, ⟨rfl, rfl, rfl⟩, fun piece hpiece => ?_, rfl⟩
  · simp [Scan.take, Scan.push, Scan.pushComments, Scan.moveTo, Upcoming.start]
  · have hstart := hs.next.gap.placed
    rw [show s.next.gap.rest = (Sight.ofText cs).body from congrArg Sight.body hsight, hpiece]
      at hstart
    exact hstart.slice hstop

/-! ### Repetitions -/

/-- Reading as often as possible takes the text `cs` up to `rest`. -/
def MakesMany (source : List Char) (read : Scan → Reading) (cs rest : List Char)
    (P : List Node → Prop) : Prop :=
  ∀ fuel, cs.length < fuel → Makes source (fun s => .ok (s.repeatedly read fuel)) cs rest P

theorem MakesMany.mono (h : MakesMany source read cs rest P) (hPQ : ∀ made, P made → Q made) :
    MakesMany source read cs rest Q :=
  fun fuel hfuel => (h fuel hfuel).mono hPQ

theorem makesMany_nil (h : Fails source read cs) : MakesMany source read cs cs (· = []) := by
  intro fuel hfuel s hs hlenient
  obtain ⟨fuel, rfl⟩ := Nat.exists_eq_succ_of_ne_zero (Nat.ne_of_gt (Nat.zero_lt_of_lt hfuel))
  obtain ⟨reach, hreach⟩ := h s hs hlenient
  refine ⟨{ s with reach := reach }, by simp only [Scan.repeatedly, hreach],
    hs.ofSame rfl rfl rfl, hlenient, [], by simp, rfl⟩

theorem makesMany_cons (h : Makes source read cs mid P) (hshort : mid.length < cs.length)
    (h' : MakesMany source read mid rest Q) : MakesMany source read cs rest (Then P Q) := by
  intro fuel hfuel s hs hlenient
  obtain ⟨fuel, rfl⟩ := Nat.exists_eq_succ_of_ne_zero (Nat.ne_of_gt (Nat.zero_lt_of_lt hfuel))
  obtain ⟨t, ht, hsees, hsame, made, hmade, hP⟩ := h s hs hlenient
  have hmove : ¬((t.stop.offset = s.stop.offset && t.children.length = s.children.length) =
      true) := by
    have hplaced := hs.placed
    have hplaced' := hsees.placed
    rw [hs.rest_eq] at hplaced
    rw [hsees.rest_eq] at hplaced'
    simp [Placed.offset_ne hplaced hplaced' hshort]
  obtain ⟨u, hu, hsees', hsame', made', hmade', hQ⟩ := h' fuel (by omega) t hsees hsame
  refine ⟨u, ?_, hsees', hsame', made ++ made', ?_, made, made', rfl, hP, hQ⟩
  · simp only [Scan.repeatedly, ht, if_neg hmove]
    exact hu
  · rw [hmade', hmade, List.reverse_append, List.append_assoc]

theorem MakesMany.many (h : MakesMany source (rule.read self) cs rest P) :
    Makes source ((Rule.many rule).read self) cs rest P := by
  intro s hs hlenient
  exact h _ (hs.rest_eq ▸ Nat.lt_succ_self _) s hs hlenient

end

end ServiceScaffold.Syntax
