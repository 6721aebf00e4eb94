import Mathlib.Data.List.Nodup
import ServiceScaffold.Proofs.Syntax.Walk

/-!
# The walk, one node at a time

A traversal gives the nodes of a tree on request.  It stands at the node that it gives next; when it
is asked, it moves on by single moves of the cursor: to the first child, else to the next sibling,
else up until a node has one.  If none has, it is done.

* `Cursor.IsIn` : the nodes of a tree, each with the way to it, with the nodes around it
  (`Cursor.of_mem_children`); the walk comes to each of them (`Cursor.mem_walk_iff`), and only once
  (`Cursor.nodup_walk`);
* `Traversal.ahead` : the nodes that are still to be given, by recursion over the tree;
* `Traversal.ahead_climb` : climbing comes to the first of the nodes behind the tree of a node;
* `Traversal.next_spec` : **a request gives the first node ahead and leaves the others**;
* `Traversal.given_eq` : so the requests give the nodes ahead, one after the other, by induction;
* `Traversal.gives_preorder` : **the requests give each node of a tree once, in preorder, and then
  nothing**.
-/

namespace ServiceScaffold.Syntax

namespace Cursor

/-! ### The nodes of a tree -/

/-- The node belongs to the tree: it is the root, or a child of a node that does. -/
inductive IsIn (root : Node) : Cursor → Prop
  | root : IsIn root (ofRoot root)
  | child {c m : Cursor} : IsIn root c → m ∈ c.children → IsIn root m

theorem isIn_of_mem_listingAll {root parent : Node} {way : List Step} {before nodes : List Node}
    (h : ∀ n ∈ nodes, ∀ way, IsIn root ⟨n, way⟩ → ∀ c ∈ listing way n, IsIn root c)
    (hnodes : ∀ m ∈ siblings parent way before nodes, IsIn root m) :
    ∀ c ∈ listingAll parent way before nodes, IsIn root c := by
  induction nodes generalizing before with
  | nil => nofun
  | cons n after ih =>
    intro c hc
    rw [listingAll] at hc
    rw [siblings] at hnodes
    obtain hfirst | hafter := List.mem_append.1 hc
    · exact h n List.mem_cons_self _ (hnodes _ List.mem_cons_self) c hfirst
    · exact ih (fun m hm => h m (List.mem_cons_of_mem _ hm))
        (fun m hm => hnodes m (List.mem_cons_of_mem _ hm)) c hafter

theorem isIn_of_mem_listing {root : Node} (n : Node) : ∀ way, IsIn root ⟨n, way⟩ →
    ∀ c ∈ listing way n, IsIn root c := by
  induction n using Node.induct with
  | mk kind field start stop missing children ih =>
    intro way h c hc
    rw [listing] at hc
    obtain rfl | hbelow := List.mem_cons.1 hc
    · exact h
    · exact isIn_of_mem_listingAll ih (fun m hm => h.child hm) c hbelow

theorem mem_listing_self (way : List Step) (n : Node) : ⟨n, way⟩ ∈ listing way n := by
  rw [listing_eq]
  exact List.mem_cons_self

theorem mem_listingAll_of_mem_siblings {parent : Node} {way : List Step} {before nodes : List Node}
    {m : Cursor} (h : m ∈ siblings parent way before nodes) :
    m ∈ listingAll parent way before nodes := by
  induction nodes generalizing before with
  | nil => cases h
  | cons n after ih =>
    rw [listingAll]
    obtain rfl | hafter := List.mem_cons.1 h
    · exact List.mem_append_left _ (mem_listing_self _ n)
    · exact List.mem_append_right _ (ih hafter)

theorem mem_listingAll_of_child {m c : Cursor} {parent : Node} {way : List Step}
    {before nodes : List Node}
    (h : ∀ n ∈ nodes, ∀ way, ∀ c ∈ listing way n, m ∈ c.children → m ∈ listing way n)
    (hc : c ∈ listingAll parent way before nodes) (hm : m ∈ c.children) :
    m ∈ listingAll parent way before nodes := by
  induction nodes generalizing before with
  | nil => cases hc
  | cons n after ih =>
    rw [listingAll] at hc ⊢
    obtain hfirst | hafter := List.mem_append.1 hc
    · exact List.mem_append_left _ (h n List.mem_cons_self _ c hfirst hm)
    · exact List.mem_append_right _ (ih (fun k hk => h k (List.mem_cons_of_mem _ hk)) hafter)

/-- The children of a listed node are listed. -/
theorem mem_listing_of_child {m : Cursor} (n : Node) : ∀ way, ∀ c ∈ listing way n,
    m ∈ c.children → m ∈ listing way n := by
  induction n using Node.induct with
  | mk kind field start stop missing children ih =>
    intro way c hc hm
    rw [listing] at hc ⊢
    obtain rfl | hbelow := List.mem_cons.1 hc
    · exact List.mem_cons_of_mem _ (mem_listingAll_of_mem_siblings hm)
    · exact List.mem_cons_of_mem _ (mem_listingAll_of_child ih hbelow hm)

/-- The walk comes to the nodes of the tree and to no others. -/
theorem mem_walk_iff {root : Node} {c : Cursor} : c ∈ walk root ↔ c.IsIn root := by
  rw [walk_eq_listing]
  refine ⟨isIn_of_mem_listing root [] .root c, fun h => ?_⟩
  induction h with
  | root => exact mem_listing_self [] root
  | child _ hm ih => exact mem_listing_of_child root [] _ ih hm

/-! ### Around a node of a tree -/

namespace IsIn

variable {root : Node} {c d : Cursor}

theorem mem_preorder (h : c.IsIn root) : c.node ∈ root.preorder := by
  rw [← map_node_walk]
  exact List.mem_map_of_mem (mem_walk_iff.2 h)

theorem exists_of_mem_preorder {n : Node} (h : n ∈ root.preorder) :
    ∃ c : Cursor, c.IsIn root ∧ c.node = n := by
  rw [← map_node_walk] at h
  obtain ⟨c, hc, hnode⟩ := List.mem_map.1 h
  exact ⟨c, mem_walk_iff.1 hc, hnode⟩

theorem child? {f : FieldName} (h : c.IsIn root) (hd : c.child? f = some d) : d.IsIn root :=
  h.child (List.mem_of_find?_eq_some hd)

end IsIn

theorem node_mem_children {c d : Cursor} (h : d ∈ c.children) : d.node ∈ c.node.children := by
  rw [← map_node_siblings c.node c.way [] c.node.children]
  exact List.mem_map_of_mem h

/-- What stands at a child: its parent, and siblings among the children of that. -/
theorem of_mem_children {c d : Cursor} (h : d ∈ c.children) :
    d.parent? = some c ∧ ∀ n ∈ d.before, n ∈ c.node.children := by
  have hsiblings : ∀ {before nodes : List Node}, (∀ n ∈ before, n ∈ c.node.children) →
      (∀ n ∈ nodes, n ∈ c.node.children) → d ∈ siblings c.node c.way before nodes →
        d.parent? = some c ∧ ∀ n ∈ d.before, n ∈ c.node.children := by
    intro before nodes hbefore hnodes h
    induction nodes generalizing before with
    | nil => cases h
    | cons n nodes ih =>
      obtain ⟨hn, hlater⟩ := List.forall_mem_cons.1 hnodes
      obtain rfl | hrest := List.mem_cons.1 h
      · exact ⟨rfl, hbefore⟩
      · exact ih (List.forall_mem_cons.2 ⟨hn, hbefore⟩) hlater hrest
  exact hsiblings (List.forall_mem_nil _) (fun n hn => hn) h

namespace IsIn

variable {root : Node} {c d : Cursor}

/-- The siblings before a node of a tree belong to the tree. -/
theorem before (h : c.IsIn root) : ∀ n ∈ c.before, n ∈ root.preorder := by
  cases h with
  | root => exact fun n hn => by cases hn
  | @child p _ hp hc =>
    intro n hn
    have hmem := (of_mem_children hc).2 n hn
    rw [← map_node_siblings p.node p.way [] p.node.children] at hmem
    obtain ⟨m, hm, rfl⟩ := List.mem_map.1 hmem
    exact (hp.child hm).mem_preorder

theorem parent {p : Cursor} (h : c.IsIn root) (hp : c.parent? = some p) : p.IsIn root := by
  cases h with
  | root => cases hp
  | child hq hc =>
    rw [(of_mem_children hc).1] at hp
    obtain rfl := Option.some.inj hp
    exact hq

end IsIn

/-! ### Each node once -/

theorem nodup_listingAll {parent : Node} {way : List Step} {before nodes : List Node}
    (h : ∀ n ∈ nodes, ∀ way, (listing way n).Nodup) :
    (listingAll parent way before nodes).Nodup := by
  induction nodes generalizing before with
  | nil => exact List.nodup_nil
  | cons n after ih =>
    rw [listingAll]
    refine List.nodup_append.2 ⟨h n List.mem_cons_self _,
      ih fun m hm => h m (List.mem_cons_of_mem _ hm), fun c hc d hd => ?_⟩
    rintro rfl
    -- the ways part at these siblings, which differ in what stands before them
    have hfirst := way_suffix_of_mem_listing n _ c hc
    obtain ⟨step, hafter, hlength⟩ :=
      way_suffix_of_mem_listingAll (fun n _ => way_suffix_of_mem_listing n) hd
    have hsame := List.suffix_of_suffix_length_le hfirst hafter (by simp)
    obtain rfl := (List.cons.inj (hsame.eq_of_length (by simp))).1
    simp only [List.length_cons] at hlength
    omega

theorem nodup_listing (n : Node) : ∀ way, (listing way n).Nodup := by
  induction n using Node.induct with
  | mk kind field start stop missing children ih =>
    intro way
    rw [listing]
    refine List.nodup_cons.2 ⟨fun hself => ?_, nodup_listingAll ih⟩
    exact Nat.lt_irrefl _ (length_way_of_mem_listingAll hself)

/-- The walk comes to no node twice. -/
theorem nodup_walk (root : Node) : (walk root).Nodup := by
  rw [walk_eq_listing]
  exact nodup_listing root []

theorem length_preorderAll {nodes : List Node} (h : ∀ n ∈ nodes, n.preorder.length = n.size) :
    (Node.preorderAll nodes).length = Node.sizeAll nodes := by
  induction nodes with
  | nil => rfl
  | cons n after ih =>
    rw [Node.preorderAll, List.length_append, h n List.mem_cons_self,
      ih fun m hm => h m (List.mem_cons_of_mem _ hm), Node.sizeAll]

theorem length_preorder (n : Node) : n.preorder.length = n.size := by
  induction n using Node.induct with
  | mk kind field start stop missing children ih =>
    rw [Node.preorder, List.length_cons, length_preorderAll ih, Node.size]

theorem length_walk (root : Node) : (walk root).length = root.size := by
  rw [← length_preorder, ← map_node_walk, List.length_map]

end Cursor

/-! ### Traversals -/

/-- A walk under way: the node that is given next, unless all have been given. -/
structure Traversal where
  cursor : Cursor
  done : Bool

namespace Traversal

open Cursor

/-- A traversal that gives the root next. -/
def start (root : Node) : Traversal := ⟨ofRoot root, false⟩

theorem length_way_of_parent? {c parent : Cursor} (h : c.parent? = some parent) :
    parent.way.length < c.way.length := by
  unfold parent? at h
  split at h
  · rename_i step way hway
    obtain rfl := Option.some.inj h
    simp [hway]
  · cases h

/-- Goes to the next sibling, of the nearest node from the given one upwards that has one.  If none
has, the traversal is done, and stands at the root. -/
def climb (c : Cursor) : Traversal :=
  match c.nextSibling? with
  | some next => ⟨next, false⟩
  | none =>
    match _h : c.parent? with
    | some parent => climb parent
    | none => ⟨c, true⟩
termination_by c.way.length
decreasing_by exact length_way_of_parent? ‹_›

/-- Gives a node and moves on. -/
def next (t : Traversal) : Option Cursor × Traversal :=
  if t.done then (none, t)
  else match t.cursor.firstChild? with
    | some first => (some t.cursor, ⟨first, false⟩)
    | none => (some t.cursor, climb t.cursor)

/-- The traversal after `i` requests. -/
def after (t : Traversal) : Nat → Traversal
  | 0 => t
  | i + 1 => (t.after i).next.2

/-- What is given after `i` requests. -/
def given (t : Traversal) (i : Nat) : Option Cursor := (t.after i).next.1

/-! ### What is ahead -/

/-- The listings of what comes behind the tree of a node. -/
def behind (n : Node) : List Step → List Cursor
  | [] => []
  | ⟨parent, before, after⟩ :: way => listingAll parent way (n :: before) after ++ behind parent way

/-- The nodes that are still to be given. -/
def ahead (t : Traversal) : List Cursor :=
  if t.done then [] else listing t.cursor.way t.cursor.node ++ behind t.cursor.node t.cursor.way

theorem done_iff {t : Traversal} : t.done = true ↔ t.ahead = [] := by
  rw [ahead, listing_eq]
  split <;> simp_all

/-- Climbing comes to the first of the nodes behind the tree of a node. -/
theorem ahead_climb (c : Cursor) : (climb c).ahead = behind c.node c.way := by
  fun_induction climb c with
  | case1 c next hnext =>
    unfold nextSibling? at hnext
    split at hnext
    · rename_i parent before sibling after way hway
      obtain rfl := Option.some.inj hnext
      simp [ahead, hway, behind, listingAll]
    · cases hnext
  | case2 c hnext parent hparent ih =>
    unfold parent? at hparent
    split at hparent
    · rename_i step way hway
      obtain rfl := Option.some.inj hparent
      obtain ⟨parent, before, after⟩ := step
      -- there is no next sibling, so that nothing is listed before the parent's siblings
      cases after with
      | nil => simpa [hway, behind, listingAll] using ih
      | cons sibling after => simp [nextSibling?, hway] at hnext
    · cases hparent
  | case3 c hnext hparent =>
    have hway : c.way = [] := by
      unfold parent? at hparent
      split at hparent
      · cases hparent
      · assumption
    simp [ahead, hway, behind]

/-- **A request gives the first node ahead and leaves the others.** -/
theorem next_spec (t : Traversal) :
    t.next.1 = t.ahead.head? ∧ t.next.2.ahead = t.ahead.tail := by
  obtain ⟨⟨n, way⟩, done⟩ := t
  cases done with
  | true => simp [next, ahead]
  | false =>
    have hahead : ahead ⟨⟨n, way⟩, false⟩ =
        ⟨n, way⟩ :: (listingAll n way [] n.children ++ behind n way) := by
      rw [ahead, if_neg (by simp), listing_eq, List.cons_append]
    rw [hahead, next, if_neg (by simp), firstChild?]
    rcases hchildren : n.children with _ | ⟨first, rest⟩
    · exact ⟨rfl, by simp [ahead_climb, listingAll]⟩
    · exact ⟨rfl, by simp [ahead, listingAll, behind]⟩

theorem ahead_after (t : Traversal) (i : Nat) : (t.after i).ahead = t.ahead.drop i := by
  induction i with
  | zero => rfl
  | succ i ih => rw [after, (next_spec _).2, ih, List.tail_drop]

/-- The requests give the nodes ahead, one after the other, and then nothing. -/
theorem given_eq (t : Traversal) (i : Nat) : t.given i = t.ahead[i]? := by
  rw [given, (next_spec _).1, ahead_after, List.head?_drop]

theorem ahead_start (root : Node) : (start root).ahead = walk root := by
  simp [start, ahead, ofRoot, behind, walk_eq_listing]

/-- **A traversal gives each node of a tree once, in preorder, and then nothing.**  What it gives
after any number of requests is what stands there in the walk, which comes to the nodes of the tree
and no others, to none of them twice, and in the order of the recursive listing; the traversal is
done when as many nodes have been given as the tree has, and not before. -/
theorem gives_preorder (root : Node) :
    (∀ i, (start root).given i = (walk root)[i]?) ∧
    (∀ i, ((start root).after i).done = true ↔ root.size ≤ i) ∧
    (walk root).map Cursor.node = root.preorder ∧
    (walk root).Nodup ∧
    (∀ c, c ∈ walk root ↔ c.IsIn root) := by
  refine ⟨fun i => ?_, fun i => ?_, map_node_walk root, nodup_walk root, fun c => mem_walk_iff⟩
  · rw [given_eq, ahead_start]
  · rw [done_iff, ahead_after, ahead_start, List.drop_eq_nil_iff, length_walk]

end Traversal

end ServiceScaffold.Syntax
