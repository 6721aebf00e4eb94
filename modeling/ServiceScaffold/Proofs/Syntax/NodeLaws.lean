import ServiceScaffold.Proofs.Syntax.Nesting

/-!
# What holds of the nodes of a tree

Much can be said of a tree because it can be said of each of its nodes when the node is made.  What a
rule makes can be told without knowing the text.

* `NodeLaw` : what holds of the nodes that are made, and of the children of a node by its kind;
* `Scan.Obeys` : the nodes read so far obey a law;
* `Rule.Respects` : a rule makes nodes that obey a law, as can be read off the rule;
* `Rule.read_obeys` : **reading by such a rule keeps to the law**, by induction on the rule;
* `obeys_parse` : the nodes in the tree of a text obey the law, if all rules of the grammar respect
  it.
-/

namespace ServiceScaffold.Syntax

/-- What holds of nodes when they are made; `i` tells in which kinds of nodes they stand. -/
structure NodeLaw (source : List Char) (I : Type) where
  Holds (i : I) (n : Node) : Prop
  /-- Nodes of the kind may be made. -/
  Makes (i : I) (kind : NodeKind) : Prop
  /-- Where the children of a node of the kind stand. -/
  inside (i : I) (kind : NodeKind) : I
  /-- Absent tokens may be made up for, or may not. -/
  Allows (_i : I) (_isLenient : Bool) : Prop := True
  /-- Where nodes stand while absent tokens are made up for. -/
  loose (i : I) : I := i
  /-- The end of a line may end a statement, or may not. -/
  Lines (_i : I) (_breaks : Bool) : Prop := True
  /-- Where nodes stand once it is known whether the end of a line may end a statement. -/
  lined (i : I) (_breaks : Bool) : I := i
  /-- The goal may be read. -/
  Admits (_i : I) (_g : Goal) : Prop := True
  makes {i : I} {kind : NodeKind} (hcomment : kind ≠ .comment) (hexport : kind ≠ .exportStatement) :
    Makes i kind
  comment {i : I} {n : Node} (hn : n.IsPlain source) : Holds i n
  leaf {i : I} {kind : NodeKind} {start stop : Location} {missing : Bool} (hkind : Makes i kind) :
    Holds i (.mk kind none start stop missing [])
  node {i : I} {kind : NodeKind} {start stop : Location} {children : List Node}
    (hkind : Makes i kind) (hchildren : ∀ n ∈ children, Holds (inside i kind) n) :
    Holds i (.mk kind none start stop false children)
  allows_inside {i : I} {kind : NodeKind} {isLenient : Bool} :
    Allows (inside i kind) isLenient ↔ Allows i isLenient := by exact fun {_ _ _} => Iff.rfl
  allows_lined {i : I} {breaks isLenient : Bool} :
    Allows (lined i breaks) isLenient ↔ Allows i isLenient := by exact fun {_ _ _} => Iff.rfl
  lines_inside {i : I} {kind : NodeKind} {breaks : Bool} :
    Lines (inside i kind) breaks ↔ Lines i breaks := by exact fun {_ _ _} => Iff.rfl
  lines_loose {i : I} {breaks : Bool} :
    Lines (loose i) breaks ↔ Lines i breaks := by exact fun {_ _} => Iff.rfl
  lines_lined {i : I} {breaks : Bool} : Lines (lined i breaks) breaks := by
    exact fun {_ _} => trivial
  holds_lined {i : I} {breaks : Bool} {n : Node} : Holds (lined i breaks) n ↔ Holds i n := by
    exact fun {_ _ _} => Iff.rfl

variable {source : List Char} {I : Type} {law : NodeLaw source I} {i j : I}

/-! ### The state of reading -/

/-- The state of reading agrees with the text, and the nodes read so far obey the law. -/
structure Scan.Obeys (law : NodeLaw source I) (i : I) (s : Scan) : Prop extends s.Agrees source where
  allowed : law.Allows i s.isLenient
  lines : law.Lines i s.breaks
  children {n : Node} : n ∈ s.children → law.Holds i n

namespace Scan.Obeys

variable {s t : Scan} {kind : NodeKind}

/-- The law does not depend on how reading goes on. -/
theorem ofSame (h : s.Obeys law i) (hstop : t.stop = s.stop) (hrest : t.rest = s.rest)
    (hnext : t.next = s.next) (hchildren : t.children = s.children)
    (hlenient : t.isLenient = s.isLenient) (hbreaks : t.breaks = s.breaks) : t.Obeys law i :=
  ⟨h.toAgrees.ofSame hstop hrest hnext, hlenient ▸ h.allowed, hbreaks ▸ h.lines,
    hchildren ▸ h.children⟩

theorem withChildren {nodes : List Node} (h : s.Obeys law i) (hallowed : law.Allows j s.isLenient)
    (hlines : law.Lines j s.breaks) (hnodes : ∀ n ∈ nodes, law.Holds j n) :
    ({ s with children := nodes } : Scan).Obeys law j :=
  ⟨h.toAgrees.ofSame rfl rfl rfl, hallowed, hlines, fun hn => hnodes _ hn⟩

/-- The law does not depend on the nodes of an outer node. -/
theorem fresh (h : s.Obeys law i) (kind : NodeKind) :
    ({ s with children := [] } : Scan).Obeys law (law.inside i kind) :=
  h.withChildren (law.allows_inside.2 h.allowed) (law.lines_inside.2 h.lines) nofun

/-- It is set whether the end of a line may end a statement. -/
theorem withBreaks (h : s.Obeys law i) (breaks : Bool) :
    ({ s with breaks := breaks } : Scan).Obeys law (law.lined i breaks) :=
  ⟨h.toAgrees.ofSame rfl rfl rfl, law.allows_lined.2 h.allowed, law.lines_lined,
    fun hn => law.holds_lined.2 (h.children hn)⟩

theorem resetBreaks {breaks : Bool} (h : s.Obeys law i) (ht : t.Obeys law (law.lined i breaks)) :
    ({ t with breaks := s.breaks } : Scan).Obeys law i :=
  ⟨ht.toAgrees.ofSame rfl rfl rfl, law.allows_lined.1 ht.allowed, h.lines,
    fun hn => law.holds_lined.1 (ht.children hn)⟩

/-- Absent tokens are made up for from here on. -/
theorem loosened (h : s.Obeys law i) (hallowed : law.Allows (law.loose i) true)
    (hsame : ∀ n, law.Holds i n ↔ law.Holds (law.loose i) n) :
    ({ s with isLenient := true } : Scan).Obeys law (law.loose i) :=
  ⟨h.toAgrees.ofSame rfl rfl rfl, hallowed, law.lines_loose.2 h.lines,
    fun hn => (hsame _).1 (h.children hn)⟩

theorem tightened (h : s.Obeys law i) (hsame : ∀ n, law.Holds i n ↔ law.Holds (law.loose i) n)
    (ht : t.Obeys law (law.loose i)) :
    ({ t with isLenient := s.isLenient } : Scan).Obeys law i :=
  ⟨ht.toAgrees.ofSame rfl rfl rfl, h.allowed, law.lines_loose.1 ht.lines,
    fun hn => (hsame _).2 (ht.children hn)⟩

/-- The law does not ask whether absent tokens are made up for. -/
theorem withLenience (h : s.Obeys law i) (hallowed : ∀ isLenient, law.Allows i isLenient)
    (isLenient : Bool) : ({ s with isLenient := isLenient } : Scan).Obeys law i :=
  ⟨h.toAgrees.ofSame rfl rfl rfl, hallowed _, h.lines, h.children⟩

theorem push {n : Node} (h : s.Obeys law i) (hn : law.Holds i n) : (s.push n).Obeys law i :=
  h.withChildren h.allowed h.lines fun m hm => by
    obtain rfl | hold := List.mem_cons.1 hm
    · exact hn
    · exact h.children hold

theorem moveTo {stop : Location} {rest : List Char} (h : s.Obeys law i)
    (hplaced : Placed source stop rest) : (s.moveTo stop rest).Obeys law i :=
  ⟨.moveTo hplaced, h.allowed, h.lines, h.children⟩

theorem pushComments (h : s.Obeys law i) : s.pushComments.Obeys law i where
  toAgrees := h.toAgrees.pushComments
  allowed := h.allowed
  lines := h.lines
  children := fun {n} hn => by
    obtain hgap | hold := List.mem_append.1 hn
    · obtain hfar | hnear := List.mem_append.1 hgap
      · exact law.comment (h.next.gap.far hfar)
      · exact law.comment (h.next.gap.near hnear)
    · exact h.children hold

theorem pushNearComments (h : s.Obeys law i) : s.pushNearComments.Obeys law i where
  toAgrees := h.toAgrees.pushNearComments
  allowed := h.allowed
  lines := h.lines
  children := fun {n} hn => by
    obtain hnear | hold := List.mem_append.1 hn
    · exact law.comment (h.next.gap.near hnear)
    · exact h.children hold

theorem take (h : s.Obeys law i) (hkind : law.Makes i kind) : (s.take kind).Obeys law i :=
  (h.pushComments.push (law.leaf hkind)).moveTo h.next.placed

/-- A node with the nodes read for it as its children. -/
theorem close {inner : Scan} {start : Location} (h : s.Obeys law i)
    (hinner : inner.Obeys law (law.inside i kind)) (hkind : law.Makes i kind) :
    (s.close inner kind start).Obeys law i where
  toAgrees := hinner.toAgrees.ofSame rfl rfl rfl
  allowed := law.allows_inside.1 hinner.allowed
  lines := law.lines_inside.1 hinner.lines
  children := fun {n} hn => by
    obtain rfl | hold := List.mem_cons.1 hn
    · exact law.node hkind fun m hm => hinner.children (List.mem_reverse.1 hm)
    · exact h.children hold

theorem accept {p : Token → Bool} (h : s.Obeys law i) (hkind : law.Makes i kind)
    (hread : s.accept p kind = .ok t) : t.Obeys law i := by
  unfold Scan.accept at hread
  split_ifs at hread
  obtain rfl := Except.ok.inj hread
  exact h.take hkind

theorem acceptRegex (h : s.Obeys law i) (hread : s.acceptRegex = .ok t) : t.Obeys law i := by
  unfold Scan.acceptRegex at hread
  dsimp only at hread
  split at hread
  · rename_i rest hrest
    split at hread
    · rename_i tail htail
      obtain rfl := Except.ok.inj hread
      have hsuffix : tail <:+ s.next.gap.rest :=
        hrest ▸ suffix_cons_of_suffix (regexTail?_suffix htail)
      exact (h.pushComments.push (law.leaf (law.makes (by simp) (by simp)))).moveTo
        (h.next.gap.placed.skipTo hsuffix)
    · cases hread
  · cases hread

theorem passTemplateText (h : s.Obeys law i) : s.passTemplateText.Obeys law i :=
  h.moveTo (h.placed.skipTo (templateTail_suffix s.rest))

theorem acceptSubstitution (h : s.Obeys law i) (hread : s.acceptSubstitution = .ok t) :
    t.Obeys law i := by
  unfold Scan.acceptSubstitution at hread
  split at hread
  · rename_i tail hrest
    obtain rfl := Except.ok.inj hread
    have hsuffix : tail <:+ s.rest := hrest ▸ ⟨['$', '\x7b'], rfl⟩
    exact (h.push (law.leaf (law.makes (by simp) (by simp)))).moveTo (h.placed.skipTo hsuffix)
  · cases hread

theorem acceptSemicolon {inExpression : Bool} (h : s.Obeys law i)
    (hread : s.acceptSemicolon inExpression = .ok t) : t.Obeys law i := by
  unfold Scan.acceptSemicolon at hread
  split_ifs at hread
  · obtain rfl := Except.ok.inj hread
    exact h.take (law.makes (by simp) (by simp))
  · obtain rfl := Except.ok.inj hread
    exact h.pushNearComments

theorem takeAny (h : s.Obeys law i) : s.takeAny.Obeys law i := by
  unfold Scan.takeAny
  split
  · split
    · rename_i hregex
      exact h.acceptRegex hregex
    · have hslash : (s.take (.token "/")).Obeys law i := h.take (law.makes (by simp) (by simp))
      exact hslash.moveTo (hslash.placed.skipTo (List.dropWhile_suffix _))
  all_goals exact h.take (law.makes (by simp) (by simp))

theorem skipWhile {fits : Scan → Bool} {stop : List String} {target : Nat}
    (h : s.Obeys law i) (fuel : Nat) : (s.skipWhile fits stop target fuel).Obeys law i := by
  induction fuel generalizing s with
  | zero => exact h
  | succ fuel ih =>
    unfold Scan.skipWhile
    split_ifs
    · exact h
    · exact h
    · exact ih h.takeAny

theorem skip {read : Scan → Reading} {stop : List String} (h : s.Obeys law i)
    (hread : s.skip read stop = .ok t) : t.Obeys law i := by
  unfold Scan.skip at hread
  split_ifs at hread
  dsimp only at hread
  obtain rfl := Except.ok.inj hread
  exact h.pushComments.close ((h.pushComments.fresh _).takeAny.skipWhile _)
    (law.makes (by simp) (by simp))

theorem skipBalanced {stop : String} (h : s.Obeys law i) (fuel depth : Nat) :
    (s.skipBalanced stop fuel depth).Obeys law i := by
  induction fuel generalizing s depth with
  | zero => exact h
  | succ fuel ih =>
    unfold Scan.skipBalanced
    split_ifs
    · exact h
    all_goals exact ih h.takeAny _

theorem skipTo {stop : String} (h : s.Obeys law i) (hread : s.skipTo stop = .ok t) :
    t.Obeys law i := by
  unfold Scan.skipTo at hread
  split_ifs at hread
  obtain rfl := Except.ok.inj hread
  exact h.pushComments.close ((h.pushComments.fresh _).skipBalanced _ _)
    (law.makes (by simp) (by simp))

/-- Reading as often as possible keeps what each reading keeps. -/
theorem repeatedly {read : Scan → Reading} (h : s.Obeys law i)
    (hread : ∀ s t : Scan, s.Obeys law i → read s = .ok t → t.Obeys law i) (fuel : Nat) :
    (s.repeatedly read fuel).Obeys law i := by
  induction fuel generalizing s with
  | zero => exact h
  | succ fuel ih =>
    unfold Scan.repeatedly
    split
    · rename_i next hnext
      split_ifs
      · exact h
      · exact ih (hread s next h hnext)
    · exact h.ofSame rfl rfl rfl rfl rfl rfl

end Scan.Obeys

/-! ### Rules -/

namespace Rule

variable {self : Goal → Scan → Reading} {s t : Scan}

/-- Reading by the rule keeps to the law. -/
def Keeps (law : NodeLaw source I) (self : Goal → Scan → Reading) (i : I) (rule : Rule Goal) :
    Prop :=
  ∀ s t : Scan, s.Obeys law i → rule.read self s = .ok t → t.Obeys law i

/-- The rule makes nodes that obey the law.  A node gets a part in its parent where the law does not
ask for parts, or else what is read as the part is known to obey. -/
def Respects (law : NodeLaw source I) (self : Goal → Scan → Reading) : I → Rule Goal → Prop
  | i, name kind _ => law.Makes i kind
  | i, literal _ kind => law.Makes i kind
  | i, missing kind => law.Makes i kind
  | i, seq first second => first.Respects law self i ∧ second.Respects law self i
  | i, choice first second => first.Respects law self i ∧ second.Respects law self i
  | i, many rule => rule.Respects law self i
  | i, breaking breaks rule => rule.Respects law self (law.lined i breaks)
  | i, lenient rule => law.Allows (law.loose i) true ∧
      (∀ n, law.Holds i n ↔ law.Holds (law.loose i) n) ∧ rule.Respects law self (law.loose i)
  | i, mended rule => (mended rule).Keeps law self i ∨
      (∀ isLenient, law.Allows i isLenient) ∧ rule.Respects law self i
  | i, node kind rule => law.Makes i kind ∧ rule.Respects law self (law.inside i kind)
  | i, wrap kind rule => law.Makes i kind ∧
      (∀ n, law.Holds i n → law.Holds (law.inside i kind) n) ∧
      rule.Respects law self (law.inside i kind)
  | i, part field rule => (part field rule).Keeps law self i ∨
      (∀ n, law.Holds i n → law.Holds i (n.withField field)) ∧ rule.Respects law self i
  | i, goal g => law.Admits i g
  -- what is read ahead or tried behind an error makes no nodes
  | _, _ => True

/-- **Reading by a rule keeps to the law**, if reading by goals does. -/
theorem read_obeys (hself : ∀ g i, law.Admits i g → (goal g).Keeps law self i) (rule : Rule Goal)
    (hrule : rule.Respects law self i) : rule.Keeps law self i := by
  intro s t h hread
  induction rule generalizing i s t with
  | empty =>
    obtain rfl := Except.ok.inj hread
    exact h
  | word letters | mark characters => exact h.accept (law.makes (by simp) (by simp)) hread
  | name kind except => exact h.accept hrule hread
  | literal token kind => exact h.accept hrule hread
  | regex => exact h.acceptRegex hread
  | templateText =>
    obtain rfl := Except.ok.inj hread
    exact h.passTemplateText
  | substitutionStart => exact h.acceptSubstitution hread
  | seq first second ihfirst ihsecond =>
    obtain ⟨hfirst, hsecond⟩ := hrule
    simp only [read] at hread
    rcases hmid : first.read self s with reach | mid
    · rw [hmid] at hread
      cases hread
    · rw [hmid] at hread
      exact ihsecond hsecond mid t (ihfirst hfirst s mid h hmid) hread
  | choice first second ihfirst ihsecond =>
    obtain ⟨hfirst, hsecond⟩ := hrule
    simp only [read] at hread
    split at hread
    · rename_i hmid
      obtain rfl := Except.ok.inj hread
      exact ihfirst hfirst s _ h hmid
    · rename_i reach hfirst
      have hsame : ({ s with reach := reach } : Scan).Obeys law i :=
        h.ofSame rfl rfl rfl rfl rfl rfl
      exact ihsecond hsecond _ t hsame hread
  | many rule ih =>
    obtain rfl := Except.ok.inj hread
    exact h.repeatedly (fun s t hs hst => ih hrule s t hs hst) _
  | ahead rule ih =>
    simp only [read] at hread
    split at hread
    · obtain rfl := Except.ok.inj hread
      exact h
    · cases hread
  | notAhead rule ih =>
    simp only [read] at hread
    split at hread
    · cases hread
    · obtain rfl := Except.ok.inj hread
      exact h
  | node kind rule ih =>
    obtain ⟨hkind, hrule⟩ := hrule
    obtain ⟨inner, hinner, rfl⟩ := Reading.exists_of_map_eq hread
    exact h.pushComments.close (ih hrule _ inner (h.pushComments.fresh kind) hinner) hkind
  | wrap kind rule ih =>
    obtain ⟨hkind, hinside, hrule⟩ := hrule
    simp only [read] at hread
    split at hread
    · rename_i last earlier hchildren
      obtain ⟨inner, hinner, rfl⟩ := Reading.exists_of_map_eq hread
      -- the node read last goes into the new one
      have hlast : ∀ n ∈ [last], law.Holds (law.inside i kind) n := fun n hn => by
        obtain rfl := List.mem_singleton.1 hn
        exact hinside n (h.children (by simp [hchildren]))
      have hearlier : ∀ n ∈ earlier, law.Holds i n := fun n hn =>
        h.children (by simp [hchildren, hn])
      have hstart := h.withChildren (law.allows_inside.2 h.allowed) (law.lines_inside.2 h.lines)
        hlast
      exact (h.withChildren h.allowed h.lines hearlier).close (ih hrule _ inner hstart hinner)
        hkind
    · cases hread
  | part field rule ih =>
    obtain hkeeps | ⟨hfield, hrule⟩ := hrule
    · exact hkeeps s t h hread
    · obtain ⟨mid, hmid, rfl⟩ := Reading.exists_of_map_eq hread
      have hin := ih hrule s mid h hmid
      -- the node read last gets the field
      split
      · rename_i last earlier hchildren
        refine hin.withChildren hin.allowed hin.lines fun n hn => ?_
        obtain rfl | hold := List.mem_cons.1 hn
        · exact hfield last (hin.children (by simp [hchildren]))
        · exact hin.children (by simp [hchildren, hold])
      · exact hin
  | breaking breaks rule ih =>
    obtain ⟨mid, hmid, rfl⟩ := Reading.exists_of_map_eq hread
    exact h.resetBreaks (ih hrule _ mid (h.withBreaks breaks) hmid)
  -- what only looks at the state leaves it as it is
  | goesOn inExpression | sameLine | inLenient | finish =>
    simp only [read] at hread
    split_ifs at hread
    obtain rfl := Except.ok.inj hread
    exact h
  | semicolon inExpression => exact h.acceptSemicolon hread
  | lenient rule ih =>
    obtain ⟨hallowed, hsame, hrule⟩ := hrule
    obtain ⟨mid, hmid, rfl⟩ := Reading.exists_of_map_eq hread
    exact h.tightened hsame (ih hrule _ mid (h.loosened hallowed hsame) hmid)
  | mended rule ih =>
    obtain hkeeps | ⟨hallowed, hrule⟩ := hrule
    · exact hkeeps s t h hread
    obtain ⟨-, hread⟩ | ⟨-, ⟨next, hnext, rfl⟩ | ⟨hread, -⟩⟩ := of_read_mended hread
    · exact ih hrule s t h hread
    · exact (ih hrule _ next (h.withLenience hallowed false) hnext).withLenience hallowed true
    · exact ih hrule s t h hread
  | missing kind =>
    simp only [read] at hread
    split_ifs at hread
    obtain rfl := Except.ok.inj hread
    exact h.push (law.leaf hrule)
  | skipped stop rule ih => exact h.skip hread
  | skippedTo stop =>
    simp only [read] at hread
    split_ifs at hread
    exact h.skipTo hread
  | goal g => exact hself g i hrule s t h hread

end Rule

/-! ### The grammar -/

/-- All rules of the grammar make nodes that obey the law, if the goals in them do. -/
def NodeLaw.Governs (law : NodeLaw source I) : Prop :=
  ∀ fuel, (∀ g i, law.Admits i g → (Rule.goal g).Keeps law (guardGoal fuel) i) →
    ∀ g i, law.Admits i g → (grammar g).Respects law (guardGoal fuel) i

/-- Reading by a goal keeps to the law, however deep its goals are nested. -/
theorem guardGoal_obeys (hlaw : law.Governs) (fuel : Nat) (g : Goal) (i : I)
    (hgoal : law.Admits i g) : (Rule.goal g).Keeps law (guardGoal fuel) i := by
  induction fuel generalizing g i with
  | zero => exact fun s t _ hread => by cases hread
  | succ fuel ih =>
    intro s t h hread
    simp only [Rule.read, guardGoal] at hread
    split_ifs at hread
    exact Rule.read_obeys ih (grammar g) (hlaw fuel ih g i hgoal) s t h hread

theorem startOf_obeys (law : NodeLaw source I) {i : I} (hallowed : law.Allows i false)
    (hlines : law.Lines i true) : (startOf source).Obeys law i := by
  refine ⟨(within_startOf source).toAgrees, ?_, ?_, ?_⟩ <;> unfold startOf <;> split
  · exact hallowed
  · exact hallowed
  · exact hlines
  · exact hlines
  · intro n hn
    obtain rfl := List.mem_singleton.1 hn
    exact law.leaf (law.makes (by simp) (by simp))
  · exact nofun

/-- **The nodes in the tree of a text obey a law** that all rules of the grammar respect. -/
theorem obeys_parse (law : NodeLaw source I) (i : I) (hallowed : law.Allows i false)
    (hlines : law.Lines i true) (hlaw : law.Governs)
    (hroot : ∀ fuel, (∀ g i, law.Admits i g → (Rule.goal g).Keeps law (guardGoal fuel) i) →
      Grammar.rootItem.Respects law (guardGoal fuel) i) :
    ∃ stop nodes, parse source = .mk .program none {} stop false nodes ∧
      ∀ n ∈ nodes, law.Holds i n := by
  have hgoals := guardGoal_obeys hlaw (40 * (source.length + 10))
  have hitem := Rule.read_obeys hgoals Grammar.rootItem (hroot _ hgoals)
  have hin := (startOf_obeys law hallowed hlines).repeatedly hitem (source.length + 1)
  exact ⟨_, _, parse_eq source, fun n hn => hin.pushComments.children (List.mem_reverse.1 hn)⟩

end ServiceScaffold.Syntax
