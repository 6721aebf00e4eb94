import ServiceScaffold.Syntax.Node

/-!
# Walking a syntax tree

A cursor is a node together with the way from the root to it, so that its parent and the nodes
before it are known.  The walk moves to the first child, else to the next sibling of the node or of
its nearest ancestor that has one (`Cursor.next?`), and lists every node of the tree once.
-/

namespace ServiceScaffold.Syntax

/-- One step of the way to a node: its parent, the siblings before it with the nearest first, and
the siblings after it. -/
structure Step where
  parent : Node
  before : List Node
  after : List Node
  deriving Repr, Inhabited

/-- A node and the way to it, the last step first. -/
structure Cursor where
  node : Node
  way : List Step
  deriving Repr, Inhabited

namespace Cursor

/-- The root of a tree. -/
def ofRoot (root : Node) : Cursor := ⟨root, []⟩

/-- The first child. -/
def firstChild? (c : Cursor) : Option Cursor :=
  match c.node.children with
  | [] => none
  | first :: rest => some ⟨first, ⟨c.node, [], rest⟩ :: c.way⟩

/-- The next sibling. -/
def nextSibling? (c : Cursor) : Option Cursor :=
  match c.way with
  | ⟨parent, before, next :: after⟩ :: way => some ⟨next, ⟨parent, c.node :: before, after⟩ :: way⟩
  | _ => none

/-- The parent. -/
def parent? (c : Cursor) : Option Cursor :=
  match c.way with
  | step :: way => some ⟨step.parent, way⟩
  | [] => none

/-- The siblings before the node, the nearest first. -/
def before (c : Cursor) : List Node :=
  match c.way with
  | step :: _ => step.before
  | [] => []

/-- Cursors at several siblings; `before` are the siblings before them, the nearest first. -/
def siblings (parent : Node) (way : List Step) : List Node → List Node → List Cursor
  | _, [] => []
  | before, n :: after =>
    ⟨n, ⟨parent, before, after⟩ :: way⟩ :: siblings parent way (n :: before) after

/-- The children of the node. -/
def children (c : Cursor) : List Cursor := siblings c.node c.way [] c.node.children

/-- The children whose kinds have names. -/
def namedChildren (c : Cursor) : List Cursor := c.children.filter (·.node.kind.isNamed)

/-- The first child in a part. -/
def child? (c : Cursor) (f : FieldName) : Option Cursor :=
  c.children.find? (·.node.field == some f)

/-- The next sibling of the node or of its nearest ancestor with one; the way up is taken from the
list of steps. -/
def climb? (node : Node) : List Step → Option Cursor
  | [] => none
  | ⟨parent, before, next :: after⟩ :: way => some ⟨next, ⟨parent, node :: before, after⟩ :: way⟩
  | ⟨parent, _, []⟩ :: way => climb? parent way

/-- The node that the walk comes to next. -/
def next? (c : Cursor) : Option Cursor := c.firstChild?.orElse fun _ => climb? c.node c.way

/-- At most `fuel` nodes of the walk from a cursor on. -/
def walkFrom : Nat → Cursor → List Cursor
  | 0, _ => []
  | fuel + 1, c =>
    match c.next? with
    | some next => c :: walkFrom fuel next
    | none => [c]

/-- The walk over a whole tree. -/
def walk (root : Node) : List Cursor := walkFrom root.size (ofRoot root)

end Cursor

end ServiceScaffold.Syntax
