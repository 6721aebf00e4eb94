import Mathlib.Data.List.Basic
import ServiceScaffold.Syntax.Walk

/-!
# The walk lists every node once

The walk goes from node to node and counts its steps, so that it could stop early or come back.  It
does neither: it lists the nodes of a tree as the recursion over the tree does.

* `Cursor.listing` : the nodes of a tree and the ways to them, by recursion over the tree;
* `Cursor.walkFrom_listing` : from a node on, the walk lists its tree and goes on after it;
* `Cursor.walk_eq_listing` : **the walk over a tree is its listing**;
* `Cursor.map_node_walk` : each node is walked over once, before the nodes below it;
* `Cursor.filter_walk_children` : the nodes right below the root are the children of the root.
-/

namespace ServiceScaffold.Syntax

theorem mem_preorderAll {m : Node} {nodes : List Node} :
    m ∈ Node.preorderAll nodes ↔ ∃ n ∈ nodes, m ∈ n.preorder := by
  induction nodes with
  | nil => simp [Node.preorderAll]
  | cons n nodes ih => simp [Node.preorderAll, ih]

/-- What holds of a tree if it holds of the trees right below it holds of all trees. -/
theorem Node.induct {P : Node → Prop}
    (mk : ∀ kind field start stop missing children, (∀ m ∈ children, P m) →
      P (.mk kind field start stop missing children)) : ∀ n, P n
  | .mk kind field start stop missing children =>
    mk kind field start stop missing children fun m _ => Node.induct mk m

namespace Cursor

mutual

/-- The nodes of a tree and the ways to them: each node before its children, and these from left to
right. -/
def listing (way : List Step) : Node → List Cursor
  | .mk kind field start stop missing children =>
    ⟨.mk kind field start stop missing children, way⟩ ::
      listingAll (.mk kind field start stop missing children) way [] children

/-- The listings of siblings; `before` are the siblings before them, the nearest first. -/
def listingAll (parent : Node) (way : List Step) : List Node → List Node → List Cursor
  | _, [] => []
  | before, n :: after =>
    listing (⟨parent, before, after⟩ :: way) n ++ listingAll parent way (n :: before) after

end

theorem listing_eq (way : List Step) (n : Node) :
    listing way n = ⟨n, way⟩ :: listingAll n way [] n.children := by
  cases n
  rw [listing]
  rfl

/-! ### The walk -/

/-- How the walk goes on after the tree of a node. -/
def walkAfter (fuel : Nat) (n : Node) (way : List Step) : List Cursor :=
  match climb? n way with
  | some next => walkFrom fuel next
  | none => []

/-- The walk lists siblings one after the other, if it lists each of their trees. -/
theorem walkFrom_listingAll {n : Node} {after : List Node}
    (h : ∀ m ∈ n :: after, ∀ fuel way,
      walkFrom (m.size + fuel) ⟨m, way⟩ = listing way m ++ walkAfter fuel m way)
    (fuel : Nat) (parent : Node) (way : List Step) (before : List Node) :
    walkFrom (Node.sizeAll (n :: after) + fuel) ⟨n, ⟨parent, before, after⟩ :: way⟩ =
      listingAll parent way before (n :: after) ++ walkAfter fuel parent way := by
  induction after generalizing n before with
  | nil =>
    have hsize : Node.sizeAll [n] + fuel = n.size + fuel := by simp [Node.sizeAll]
    have hclimb : walkAfter fuel n (⟨parent, before, []⟩ :: way) = walkAfter fuel parent way := by
      rw [walkAfter, climb?, walkAfter]
    rw [hsize, h n List.mem_cons_self, hclimb]
    simp [listingAll]
  | cons next after ih =>
    have hsize : Node.sizeAll (n :: next :: after) + fuel =
        n.size + (Node.sizeAll (next :: after) + fuel) := by
      simp [Node.sizeAll, Nat.add_assoc]
    -- the walk comes to the next sibling
    have hclimb : walkAfter (Node.sizeAll (next :: after) + fuel) n
        (⟨parent, before, next :: after⟩ :: way) =
          walkFrom (Node.sizeAll (next :: after) + fuel)
            ⟨next, ⟨parent, n :: before, after⟩ :: way⟩ := rfl
    have hlisting : listingAll parent way before (n :: next :: after) =
        listing (⟨parent, before, next :: after⟩ :: way) n ++
          listingAll parent way (n :: before) (next :: after) := by
      rw [listingAll]
    rw [hsize, h n List.mem_cons_self, hclimb, hlisting, List.append_assoc,
      ih (fun m hm => h m (List.mem_cons_of_mem _ hm))]

/-- From a node on, the walk lists its tree and goes on after it. -/
theorem walkFrom_listing (n : Node) : ∀ fuel way,
    walkFrom (n.size + fuel) ⟨n, way⟩ = listing way n ++ walkAfter fuel n way := by
  induction n using Node.induct with
  | mk kind field start stop missing children ih =>
    intro fuel way
    cases children with
    | nil =>
      have hsize : (Node.mk kind field start stop missing []).size + fuel = fuel + 1 := by
        simp [Node.size, Node.sizeAll, Nat.add_comm]
      have hnext : (Cursor.mk (.mk kind field start stop missing []) way).next? =
          climb? (.mk kind field start stop missing []) way := rfl
      rw [hsize, walkFrom, hnext, walkAfter]
      rcases climb? (.mk kind field start stop missing []) way with _ | next <;>
        simp [listing, listingAll]
    | cons first rest =>
      have hsize : (Node.mk kind field start stop missing (first :: rest)).size + fuel =
          Node.sizeAll (first :: rest) + fuel + 1 := by
        simp [Node.size, Nat.add_right_comm]
      have hnext : (Cursor.mk (.mk kind field start stop missing (first :: rest)) way).next? =
          some ⟨first, ⟨.mk kind field start stop missing (first :: rest), [], rest⟩ :: way⟩ := rfl
      rw [hsize, walkFrom, hnext, listing, List.cons_append]
      exact congrArg _ (walkFrom_listingAll ih fuel _ way [])

/-- **The walk over a tree is its listing.** -/
theorem walk_eq_listing (root : Node) : walk root = listing [] root := by
  have h := walkFrom_listing root 0 []
  rwa [Nat.add_zero, walkAfter, climb?, List.append_nil] at h

/-! ### What is listed -/

mutual

theorem map_node_listing (way : List Step) : (n : Node) →
    (listing way n).map Cursor.node = n.preorder
  | .mk kind field start stop missing children => by
    rw [listing, Node.preorder, List.map_cons, map_node_listingAll]

theorem map_node_listingAll (parent : Node) (way : List Step) (before : List Node) :
    (nodes : List Node) →
      (listingAll parent way before nodes).map Cursor.node = Node.preorderAll nodes
  | [] => rfl
  | n :: after => by
    rw [listingAll, Node.preorderAll, List.map_append, map_node_listing, map_node_listingAll]

end

/-- Each node is walked over once, before the nodes below it. -/
theorem map_node_walk (root : Node) : (walk root).map Cursor.node = root.preorder := by
  rw [walk_eq_listing, map_node_listing]

/-- The way to what is listed of siblings goes on by one of them: by one that has at least the
siblings `before` before it. -/
theorem way_suffix_of_mem_listingAll {parent : Node} {way : List Step} {before nodes : List Node}
    (h : ∀ n ∈ nodes, ∀ way, ∀ c ∈ listing way n, way <:+ c.way) {c : Cursor}
    (hc : c ∈ listingAll parent way before nodes) :
    ∃ step, step :: way <:+ c.way ∧ before.length ≤ step.before.length := by
  induction nodes generalizing before with
  | nil => cases hc
  | cons n after ih =>
    rw [listingAll] at hc
    obtain hfirst | hafter := List.mem_append.1 hc
    · exact ⟨_, h n List.mem_cons_self _ c hfirst, Nat.le_refl _⟩
    · obtain ⟨step, hsuffix, hlength⟩ :=
        ih (fun m hm => h m (List.mem_cons_of_mem _ hm)) hafter
      exact ⟨step, hsuffix, Nat.le_of_succ_le hlength⟩

/-- The way to what is listed below a node goes on from that to the node. -/
theorem way_suffix_of_mem_listing (n : Node) : ∀ way, ∀ c ∈ listing way n, way <:+ c.way := by
  induction n using Node.induct with
  | mk kind field start stop missing children ih =>
    intro way c hc
    rw [listing] at hc
    obtain rfl | hbelow := List.mem_cons.1 hc
    · exact List.suffix_rfl
    · obtain ⟨step, hsuffix, -⟩ := way_suffix_of_mem_listingAll ih hbelow
      exact (List.suffix_cons step way).trans hsuffix

/-- Below a node, the way gets longer. -/
theorem length_way_of_mem_listingAll {parent : Node} {way : List Step} {before nodes : List Node}
    {c : Cursor} (hc : c ∈ listingAll parent way before nodes) : way.length < c.way.length := by
  obtain ⟨step, hsuffix, -⟩ :=
    way_suffix_of_mem_listingAll (fun n _ => way_suffix_of_mem_listing n) hc
  exact hsuffix.length_le

theorem filter_listingAll_children (parent : Node) (way : List Step) (before nodes : List Node) :
    (listingAll parent way before nodes).filter (·.way.length == way.length + 1) =
      siblings parent way before nodes := by
  induction nodes generalizing before with
  | nil => rfl
  | cons n nodes ih =>
    have hbelow : (listingAll n (⟨parent, before, nodes⟩ :: way) [] n.children).filter
        (·.way.length == way.length + 1) = [] := by
      rw [List.filter_eq_nil_iff]
      intro c hc
      have hlonger := length_way_of_mem_listingAll hc
      simp only [List.length_cons] at hlonger
      simpa using Nat.ne_of_gt hlonger
    rw [listingAll, listing_eq, siblings, List.filter_append, ih, List.filter_cons_of_pos (by simp),
      hbelow]
    rfl

/-- The nodes right below the root are the children of the root. -/
theorem filter_walk_children (root : Node) :
    (walk root).filter (·.way.length == 1) = (ofRoot root).children := by
  rw [walk_eq_listing, listing_eq, List.filter_cons_of_neg (by simp)]
  exact filter_listingAll_children root [] [] root.children

theorem map_node_siblings (parent : Node) (way : List Step) (before nodes : List Node) :
    (siblings parent way before nodes).map Cursor.node = nodes := by
  induction nodes generalizing before with
  | nil => rfl
  | cons n nodes ih => rw [siblings, List.map_cons, ih]

/-- The child of a cursor in a part is that of its node. -/
theorem node_child? (c : Cursor) (f : FieldName) :
    (c.child? f).map Cursor.node = c.node.child? f := by
  rw [Node.child?, ← map_node_siblings c.node c.way [] c.node.children, List.find?_map]
  rfl

theorem exists_child? {c : Cursor} {f : FieldName} {m : Node} (h : c.node.child? f = some m) :
    ∃ d, c.child? f = some d ∧ d.node = m := by
  rw [← node_child?] at h
  exact Option.map_eq_some_iff.1 h

end Cursor

end ServiceScaffold.Syntax
