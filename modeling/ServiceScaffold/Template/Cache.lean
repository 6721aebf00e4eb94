import ServiceScaffold.Template.Rendering

/-!
# Cache of templates

The templates that have been read, each under the name by which it was asked for.  An entry is never
replaced and never removed (`insertIfAbsent`).
-/

namespace ServiceScaffold.Template

/-- The templates that have been read. -/
structure Cache where
  entries : List (String × Loaded)
  deriving Repr, Inhabited

namespace Cache

/-- A cache without entries. -/
def empty : Cache := ⟨[]⟩

/-- The template under a name. -/
def get? (c : Cache) (name : String) : Option Loaded := Keyed.lookup name c.entries

/-- A template stands under the name. -/
def contains (c : Cache) (name : String) : Bool := (c.get? name).isSome

/-- Puts a template under a name, unless one is there; also gives the one that is there now. -/
def insertIfAbsent (c : Cache) (name : String) (t : Loaded) : Loaded × Cache :=
  match c.get? name with
  | some present => (present, c)
  | none => (t, ⟨c.entries ++ [(name, t)]⟩)

/-- Number of the templates. -/
def size (c : Cache) : Nat := c.entries.length

/-- There are no templates. -/
def isEmpty (c : Cache) : Bool := c.entries.isEmpty

/-- The names, in order. -/
def names (c : Cache) : List String := Keyed.keys (Keyed.sortedFields c.entries)

end Cache

end ServiceScaffold.Template
