import ServiceScaffold.Proofs.Schema.Accounting
import ServiceScaffold.Proofs.Syntax.InterfaceBodies
import ServiceScaffold.Proofs.Syntax.Traversal

/-!
# The comment of a declaration

A declaration is documented by a comment node: the search goes back from sibling to sibling, over
separators and other comments, and starts once more from the export statement around the
declaration.

* `Cursor.prevSibling?`, `Cursor.commentBefore?`, `Cursor.commentNode?` : the search, and the node
  that it comes to; `Cursor.doc?_eq` says that its text is what is read as the documentation;
* `Cursor.IsNearest` : a comment node is the nearest one before a node;
* `Cursor.commentBefore?_eq_some_iff` : **the search finds the nearest comment**;
* `Cursor.IsNearest.unique` : a comment is the nearest one of one node at most;
* `Cursor.IsDocumented` : the nodes that a comment is looked up for;
* `Schema.comments_exact` : **the comment that is found is the nearest one, and it documents no
  other declaration or property**.
-/

namespace ServiceScaffold

open Syntax Text

/-! ### Nodes between a comment and what it documents -/

namespace Syntax.Node

/-- The node is a documentation comment. -/
def isDocComment (source : List Char) (n : Node) : Bool :=
  n.kind == .comment && DocComment.opener.isPrefixOf (n.text source)

/-- The node is a comment or separates members. -/
def isFiller (n : Node) : Bool :=
  n.kind == .comment || n.kind == .token ";" || n.kind == .token ","

end Syntax.Node

namespace Syntax.Cursor

variable {source : List Char} {c d k p : Cursor} {between : List Node}

/-! ### The search -/

/-- The previous sibling. -/
def prevSibling? (c : Cursor) : Option Cursor :=
  match c.way with
  | ⟨parent, previous :: before, after⟩ :: way =>
    some ⟨previous, ⟨parent, before, c.node :: after⟩ :: way⟩
  | _ => none

theorem prevSibling?_eq_none : c.prevSibling? = none ↔ c.before = [] := by
  obtain ⟨n, _ | ⟨⟨parent, _ | ⟨previous, before⟩, after⟩, way⟩⟩ := c <;>
    simp [prevSibling?, Cursor.before]

theorem before_of_prevSibling? (h : c.prevSibling? = some p) : c.before = p.node :: p.before := by
  obtain ⟨n, _ | ⟨⟨parent, _ | ⟨previous, before⟩, after⟩, way⟩⟩ := c
  · cases h
  · cases h
  · obtain rfl := Option.some.inj h
    rfl

/-- The documentation comment that is found on the way back from a node. -/
def commentBefore? (source : List Char) (c : Cursor) : Option Cursor :=
  match _h : c.prevSibling? with
  | none => none
  | some p =>
    if p.node.isDocComment source then some p
    else if p.node.isFiller then commentBefore? source p
    else none
termination_by c.before.length
decreasing_by simp [before_of_prevSibling? ‹_›]

/-- The documentation comment of a node: the one before it, else the one before the export statement
around it. -/
def commentNode? (source : List Char) (c : Cursor) : Option Cursor :=
  (c.commentBefore? source).orElse fun _ =>
    (c.parent?.filter (·.node.kind == .exportStatement)).bind (commentBefore? source)

theorem adjacentDoc?_before (source : List Char) (c : Cursor) :
    adjacentDoc? source c.before = (c.commentBefore? source).map (·.node.text source) := by
  fun_induction commentBefore? source c with
  | case1 c hnone => rw [prevSibling?_eq_none.1 hnone, adjacentDoc?, Option.map_none]
  | case2 c p hprevious hdoc =>
    obtain ⟨hkind, hopener⟩ := Bool.and_eq_true_iff.1 hdoc
    rw [before_of_prevSibling? hprevious, adjacentDoc?, if_pos (beq_iff_eq.1 hkind)]
    simp only [hopener, if_true, Option.map_some]
  | case3 c p hprevious hdoc hfiller ih =>
    rw [before_of_prevSibling? hprevious, adjacentDoc?, ih]
    simp only [Node.isDocComment, Node.isFiller, Bool.and_eq_true, Bool.or_eq_true, beq_iff_eq]
      at hdoc hfiller
    by_cases hkind : p.node.kind = .comment
    · have hopener : ¬DocComment.opener.isPrefixOf (p.node.text source) = true :=
        fun h => hdoc ⟨hkind, h⟩
      simp [hkind, hopener]
    · simp only [hkind, false_or] at hfiller
      rw [if_neg hkind, if_pos hfiller]
  | case4 c p hprevious hdoc hfiller =>
    rw [before_of_prevSibling? hprevious, adjacentDoc?]
    simp only [Node.isFiller, Bool.or_eq_true, beq_iff_eq, not_or] at hfiller
    obtain ⟨⟨hcomment, hsemicolon⟩, hcomma⟩ := hfiller
    simp [hcomment, hsemicolon, hcomma]

/-- What documents a node is read from the comment that is found for it, and else from the block
that the text before it ends with. -/
theorem doc?_eq (source : List Char) (c : Cursor) : c.doc? source =
    (((c.commentNode? source).map (·.node.text source)).orElse fun _ =>
      DocComment.trailingBlock? (takeBytes c.exported.node.start.offset source)).map
        DocComment.parse := by
  rw [doc?, commentNode?, adjacentDoc?_before, adjacentDoc?_before]
  rcases hown : c.commentBefore? source with _ | k
  · -- without an export statement around it, the node itself is tried twice
    have hother : (c.exported.commentBefore? source) =
        (c.parent?.filter (·.node.kind == .exportStatement)).bind (commentBefore? source) := by
      unfold exported
      rcases c.parent? with _ | parent
      · exact hown
      · by_cases hkind : parent.node.kind = .exportStatement <;>
          simp [hkind, hown, Option.filter_some]
    rw [hother]
    rfl
  · rfl

/-! ### The nearest comment -/

/-- The two nodes are siblings, with `between` between them, from left to right. -/
def Precedes (k : Cursor) (between : List Node) (c : Cursor) : Prop :=
  ∃ parent way before after,
    k.way = ⟨parent, before, between ++ c.node :: after⟩ :: way ∧
    c.way = ⟨parent, between.reverse ++ k.node :: before, after⟩ :: way

/-- The node `k` is the last documentation comment before `c` with nothing but comments and
separators between them. -/
def IsNearest (source : List Char) (k c : Cursor) : Prop :=
  k.node.isDocComment source = true ∧ ∃ between, Precedes k between c ∧
    ∀ n ∈ between, n.isFiller = true ∧ n.isDocComment source = false

theorem precedes_of_prevSibling? (h : c.prevSibling? = some p) : Precedes p [] c := by
  obtain ⟨n, _ | ⟨⟨parent, _ | ⟨previous, before⟩, after⟩, way⟩⟩ := c
  · cases h
  · cases h
  · obtain rfl := Option.some.inj h
    exact ⟨parent, way, before, after, rfl, rfl⟩

theorem Precedes.append (h : Precedes k between p) (hp : c.prevSibling? = some p) :
    Precedes k (between ++ [p.node]) c := by
  obtain ⟨parent, way, before, after, hk, hback⟩ := h
  obtain ⟨n, _ | ⟨⟨parent', _ | ⟨previous, before'⟩, after'⟩, way'⟩⟩ := c
  · cases hp
  · cases hp
  · obtain rfl := Option.some.inj hp
    simp only [List.cons.injEq, Step.mk.injEq] at hback
    obtain ⟨⟨rfl, rfl, rfl⟩, rfl⟩ := hback
    exact ⟨parent', way', before, after', by simpa using hk, by simp⟩

/-- Right before a node stands the last of the nodes between it and a node before it. -/
theorem Precedes.exists_prevSibling? (h : Precedes k between c) :
    (between = [] ∧ c.prevSibling? = some k) ∨
      ∃ front p, between = front ++ [p.node] ∧ c.prevSibling? = some p ∧ Precedes k front p := by
  obtain ⟨parent, way, before, after, hk, hc⟩ := h
  obtain ⟨k, kway⟩ := k
  obtain ⟨n, cway⟩ := c
  dsimp only at hk hc
  subst hk hc
  obtain rfl | ⟨front, last, rfl⟩ := List.eq_nil_or_concat' between
  · exact .inl ⟨rfl, rfl⟩
  · refine .inr ⟨front, ⟨last, ⟨parent, front.reverse ++ k :: before, n :: after⟩ :: way⟩, rfl, ?_,
      parent, way, before, n :: after, by simp, rfl⟩
    simp [prevSibling?]

theorem isNearest_of_prevSibling? (hp : c.prevSibling? = some p)
    (hdoc : p.node.isDocComment source = true) : IsNearest source p c :=
  ⟨hdoc, [], precedes_of_prevSibling? hp, nofun⟩

/-- **The search finds the nearest comment**, and nothing if there is none. -/
theorem commentBefore?_eq_some_iff :
    c.commentBefore? source = some k ↔ IsNearest source k c := by
  fun_induction commentBefore? source c with
  | case1 c hnone =>
    refine iff_of_false nofun ?_
    rintro ⟨-, between, hprecedes, -⟩
    obtain ⟨-, hprevious⟩ | ⟨-, p, -, hprevious, -⟩ := hprecedes.exists_prevSibling? <;>
      simp [hnone] at hprevious
  | case2 c p hprevious hdoc =>
    constructor
    · intro h
      obtain rfl := Option.some.inj h
      exact isNearest_of_prevSibling? hprevious hdoc
    · rintro ⟨-, between, hprecedes, hbetween⟩
      obtain ⟨-, hk⟩ | ⟨front, q, rfl, hq, -⟩ := hprecedes.exists_prevSibling?
      · exact hprevious.symm.trans hk
      · -- a documentation comment is not passed over
        obtain rfl := Option.some.inj (hprevious.symm.trans hq)
        have hplain := (hbetween p.node (by simp)).2
        rw [hdoc] at hplain
        cases hplain
  | case3 c p hprevious hdoc hfiller ih =>
    rw [ih]
    constructor
    · rintro ⟨hk, between, hprecedes, hbetween⟩
      refine ⟨hk, _, hprecedes.append hprevious, fun n hn => ?_⟩
      obtain hold | hlast := List.mem_append.1 hn
      · exact hbetween n hold
      · obtain rfl := List.mem_singleton.1 hlast
        exact ⟨hfiller, by simpa using hdoc⟩
    · rintro ⟨hk, between, hprecedes, hbetween⟩
      obtain ⟨-, hsame⟩ | ⟨front, q, rfl, hq, hfront⟩ := hprecedes.exists_prevSibling?
      · obtain rfl := Option.some.inj (hprevious.symm.trans hsame)
        exact absurd hk hdoc
      · obtain rfl := Option.some.inj (hprevious.symm.trans hq)
        exact ⟨hk, front, hfront, fun n hn => hbetween n (List.mem_append_left _ hn)⟩
  | case4 c p hprevious hdoc hfiller =>
    refine iff_of_false nofun ?_
    rintro ⟨hk, between, hprecedes, hbetween⟩
    obtain ⟨-, hsame⟩ | ⟨front, q, rfl, hq, -⟩ := hprecedes.exists_prevSibling?
    · obtain rfl := Option.some.inj (hprevious.symm.trans hsame)
      exact hdoc hk
    · obtain rfl := Option.some.inj (hprevious.symm.trans hq)
      exact hfiller (hbetween p.node (by simp)).1

/-- A comment is the nearest one of one node at most, comments and separators aside. -/
theorem IsNearest.unique (h : IsNearest source k c) (h' : IsNearest source k d)
    (hc : c.node.isFiller = false) (hd : d.node.isFiller = false) : c = d := by
  obtain ⟨-, between, ⟨parent, way, before, after, hk, hcway⟩, hbetween⟩ := h
  obtain ⟨-, between', ⟨parent', way', before', after', hk', hdway⟩, hbetween'⟩ := h'
  rw [hk] at hk'
  simp only [List.cons.injEq, Step.mk.injEq] at hk'
  obtain ⟨⟨rfl, rfl, hafter⟩, rfl⟩ := hk'
  -- the node is the first one behind the comment that is no filler
  have hfront : ∀ {front more : List Node} {n : Node}, (∀ m ∈ front, m.isFiller = true) →
      n.isFiller = false → (front ++ n :: more).takeWhile Node.isFiller = front := by
    intro front more n hfront hn
    rw [List.takeWhile_append_of_pos hfront, List.takeWhile_cons_of_neg (by simp [hn]),
      List.append_nil]
  have hsame := congrArg (List.takeWhile Node.isFiller) hafter
  rw [hfront (fun m hm => (hbetween m hm).1) hc,
    hfront (fun m hm => (hbetween' m hm).1) hd] at hsame
  subst hsame
  obtain ⟨hnode, rfl⟩ := List.cons.inj (List.append_cancel_left hafter)
  obtain ⟨n, cway⟩ := c
  obtain ⟨m, dway⟩ := d
  subst hnode hcway hdway
  rfl

/-! ### What comments are looked up for -/

/-- A comment is looked up for the node: it is a declaration of the tree that is exported and belongs
to a schema, or a property member of an interface among them. -/
inductive IsDocumented (root : Node) : Cursor → Prop
  | declaration {c d : Cursor} : c ∈ walk root → c.declared? = some d → IsDocumented root d
  | property {c d m : Cursor} : c ∈ walk root → c.declared? = some d →
      d.node.kind = .interfaceDeclaration → m ∈ d.propertyMembers → IsDocumented root m

theorem declared?_eq_some (h : c.declared? = some d) : c.node.kind = .exportStatement ∧
    c.child? .declaration = some d ∧ isSupported c.standsOnTop d.node.kind = true := by
  unfold declared? at h
  split_ifs at h with hkind
  obtain ⟨hchild, hsupported⟩ := Option.filter_eq_some_iff.1 h
  exact ⟨hkind, hchild, hsupported⟩

theorem parent?_of_declared? (h : c.declared? = some d) : d.parent? = some c :=
  (of_mem_children (List.mem_of_find?_eq_some (declared?_eq_some h).2.1)).1

/-- The members of an interface stand in its body, which is no export statement. -/
theorem exists_body {root : Node} {m : Cursor} (hroot : root.InterfacesApart) (hd : d ∈ walk root)
    (hinterface : d.node.kind = .interfaceDeclaration) (h : m ∈ d.propertyMembers) :
    m.node.kind = .propertySignature ∧
      ∃ b, m.parent? = some b ∧ b.node.kind ≠ .exportStatement := by
  obtain ⟨hmember, hkind⟩ := List.mem_filter.1 h
  refine ⟨beq_iff_eq.1 hkind, ?_⟩
  rcases hbody : d.child? .body with _ | b
  · simp [hbody] at hmember
  rw [hbody, Option.map_some, Option.getD_some] at hmember
  have hmem : d.node ∈ root.preorder := by
    rw [← map_node_walk]
    exact List.mem_map_of_mem hd
  have hchild : d.node.child? .body = some b.node := by
    rw [← node_child?, hbody, Option.map_some]
  exact ⟨b, (of_mem_children (List.mem_filter.1 hmember).1).1,
    hroot d.node hmem hinterface b.node hchild⟩

/-- What is documented is no comment, no separator and no export statement, and of the children of
an export statement there is one at most. -/
theorem IsDocumented.spec {root : Node} (hroot : root.InterfacesApart) (h : IsDocumented root c) :
    c.node.isFiller = false ∧ c.node.kind ≠ .exportStatement ∧
      ∀ p, c.parent? = some p → p.node.kind = .exportStatement → p.declared? = some c := by
  cases h with
  | @declaration e _ he hdeclared =>
    obtain ⟨-, -, hsupported⟩ := declared?_eq_some hdeclared
    refine ⟨?_, ?_, fun p hp hkind => ?_⟩
    · unfold Node.isFiller
      rcases hkind : c.node.kind <;> simp_all [isSupported]
    · rintro hkind
      simp [hkind, isSupported] at hsupported
    · rw [parent?_of_declared? hdeclared] at hp
      obtain rfl := Option.some.inj hp
      exact hdeclared
  | @property e d _ he hdeclared hinterface hmember =>
    have hd : d ∈ walk root := mem_walk_iff.2 ((mem_walk_iff.1 he).child
      (List.mem_of_find?_eq_some (declared?_eq_some hdeclared).2.1))
    obtain ⟨hkind, b, hb, hapart⟩ := exists_body hroot hd hinterface hmember
    refine ⟨by simp [Node.isFiller, hkind], by simp [hkind], fun p hp hexport => ?_⟩
    rw [hb] at hp
    obtain rfl := Option.some.inj hp
    exact absurd hexport hapart

/-- The comment that is found is the nearest one before the node, or the nearest one before the
export statement around it if there is none before the node. -/
theorem commentNode?_eq_some_iff : c.commentNode? source = some k ↔
    IsNearest source k c ∨ (¬∃ k', IsNearest source k' c) ∧
      ∃ p, c.parent? = some p ∧ p.node.kind = .exportStatement ∧ IsNearest source k p := by
  have hnone : c.commentBefore? source = none ↔ ¬∃ k', IsNearest source k' c := by
    simp only [← commentBefore?_eq_some_iff, Option.eq_none_iff_forall_ne_some, not_exists, ne_eq]
  rw [commentNode?, Option.orElse_eq_or, Option.or_eq_some_iff, hnone, commentBefore?_eq_some_iff,
    Option.bind_eq_some_iff]
  simp only [Option.filter_eq_some_iff, beq_iff_eq, commentBefore?_eq_some_iff, and_assoc]

end Syntax.Cursor

namespace Schema

open Syntax.Cursor

/-- **A comment documents the nearest declaration and no other one.**  The comment that is found for
a node of any tree is the last documentation comment before it with nothing but comments and
separators between them, or else the last one before the export statement around it; its text is
what is read as the documentation.  No two exported declarations or property members of a tree have
the same comment, if the body of no interface in the tree is an export statement, which holds of the
tree of every text. -/
theorem comments_exact (source : List Char) (root : Node) :
    (∀ c k : Cursor, c.commentNode? source = some k ↔
      IsNearest source k c ∨ (¬∃ k', IsNearest source k' c) ∧
        ∃ p, c.parent? = some p ∧ p.node.kind = .exportStatement ∧ IsNearest source k p) ∧
    (∀ c k : Cursor, c.commentNode? source = some k →
      c.doc? source = some (DocComment.parse (k.node.text source))) ∧
    (root.InterfacesApart → ∀ c d k : Cursor, c.IsDocumented root → d.IsDocumented root →
      c.commentNode? source = some k → d.commentNode? source = some k → c = d) ∧
    (parse source).InterfacesApart := by
  refine ⟨fun c k => commentNode?_eq_some_iff, fun c k h => ?_, fun hroot c d k hc hd hck hdk => ?_,
    interfacesApart_parse source⟩
  · rw [doc?_eq, h]
    rfl
  · obtain ⟨hcfiller, hcexport, hconly⟩ := hc.spec hroot
    obtain ⟨hdfiller, hdexport, hdonly⟩ := hd.spec hroot
    have hexport {p : Cursor} (hkind : p.node.kind = .exportStatement) :
        p.node.isFiller = false := by simp [Node.isFiller, hkind]
    obtain hown | ⟨-, p, hp, hpkind, habove⟩ := commentNode?_eq_some_iff.1 hck <;>
      obtain hown' | ⟨-, q, hq, hqkind, habove'⟩ := commentNode?_eq_some_iff.1 hdk
    · exact hown.unique hown' hcfiller hdfiller
    · obtain rfl := hown.unique habove' hcfiller (hexport hqkind)
      exact absurd hqkind hcexport
    · obtain rfl := hown'.unique habove hdfiller (hexport hpkind)
      exact absurd hpkind hdexport
    · obtain rfl := habove.unique habove' (hexport hpkind) (hexport hqkind)
      exact Option.some.inj ((hconly p hp hpkind).symm.trans (hdonly p hq hqkind))

/-- An interface with two properties, of which the second one has no comment. -/
def twoComments : List Char :=
  "/** a */ export interface N \x7b /* . */ /** b */ ; x: string, y: string \x7d".toList

/-- The interface and its first property have a comment each. -/
theorem comments_exact_member :
    (((walk (parse twoComments)).filterMap declared?).flatMap fun d =>
      (d :: d.propertyMembers).map fun c => descriptionIn (c.doc? twoComments)) =
        [some "a", some "b", none] ∧
    ∀ c d k : Cursor, c.IsDocumented (parse twoComments) → d.IsDocumented (parse twoComments) →
      c.commentNode? twoComments = some k → d.commentNode? twoComments = some k → c = d := by
  obtain ⟨-, -, hunique, hbodies⟩ := comments_exact twoComments (parse twoComments)
  refine ⟨?_, hunique hbodies⟩
  have hletters : twoComments = _ := String.toList_ofList
  rw [hletters]
  decide +kernel

end Schema

end ServiceScaffold
