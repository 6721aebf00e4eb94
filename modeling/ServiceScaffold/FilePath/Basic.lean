import ServiceScaffold.Text.Blank
import ServiceScaffold.Text.Quoted

/-!
# File paths

A path is a text; what it means are its components (`FilePath.components`).  Empty pieces between
slashes stand for nothing, and neither does a dot, unless it starts a relative path.  Two paths are
the same place if their components are equal (`FilePath.same`), and paths are ordered by their
components (`FilePath.before`).  Joining and taking the parent keep the text as it was written.
-/

namespace ServiceScaffold

open Text

/-- One step of a path. -/
inductive Component where
  | root
  | current
  | parent
  | normal (name : List Char)
  deriving DecidableEq, Repr, Inhabited

namespace Component

/-- An ordinary name or the directory itself: a step that does not leave the directory. -/
def isInner : Component → Bool
  | .current => true
  | .normal _ => true
  | _ => false

/-- The name of an ordinary step. -/
def name? : Component → Option (List Char)
  | .normal name => some name
  | _ => none

/-- Rank of the kind of a component. -/
def rank : Component → Nat
  | .root => 0
  | .current => 1
  | .parent => 2
  | .normal _ => 3

/-- Order of components: by kind, then by name. -/
def before : Component → Component → Bool
  | .normal a, .normal b => decide (a < b)
  | a, b => decide (a.rank < b.rank)

/-- What a piece between slashes stands for, unless it starts the path. -/
def ofPiece? (piece : List Char) : Option Component :=
  if piece = [] ∨ piece = ['.'] then none
  else if piece = ['.', '.'] then some .parent
  else some (.normal piece)

end Component

/-- A path as it is written. -/
structure FilePath where
  chars : List Char
  deriving DecidableEq, Repr, Inhabited

namespace FilePath

/-- The path that a text writes. -/
def ofString (text : String) : FilePath := ⟨text.toList⟩

/-- The text of a path. -/
def text (p : FilePath) : String := String.ofList p.chars

/-- The text of a path in double quotes, with a backslash before quotes of both kinds. -/
def quotedText (p : FilePath) : String := String.ofList (quoted ['"', '\\', '\''] p.chars)

/-- The slash. -/
def isSlash (c : Char) : Bool := c == '/'

/-- The path starts at the root. -/
def isAbsolute (p : FilePath) : Bool := p.chars.head? == some '/'

/-- The path is relative and starts with a dot of its own. -/
def startsHere (p : FilePath) : Bool :=
  match p.chars with
  | ['.'] => true
  | '.' :: '/' :: _ => true
  | _ => false

/-- The components of a path, from left to right. -/
def components (p : FilePath) : List Component :=
  (if p.isAbsolute then [.root] else if p.startsHere then [.current] else []) ++
    (splitOn isSlash p.chars).filterMap Component.ofPiece?

/-- The two paths lead through the same components. -/
def same (p q : FilePath) : Bool := p.components == q.components

/-- Order of component lists. -/
def componentsBefore : List Component → List Component → Bool
  | _, [] => false
  | [], _ :: _ => true
  | a :: as, b :: bs => a.before b || (a == b && componentsBefore as bs)

/-- Order of paths, by their components. -/
def before (p q : FilePath) : Bool := componentsBefore p.components q.components

/-- The path `q` as seen from `p`: an absolute `q` stays as it is. -/
def join (p q : FilePath) : FilePath :=
  if q.isAbsolute then q
  else if p.chars.isEmpty || p.chars.getLast? == some '/' then ⟨p.chars ++ q.chars⟩
  else ⟨p.chars ++ '/' :: q.chars⟩

/-- Number of characters at the start that belong to the root or to a leading dot. -/
def headLength (p : FilePath) : Nat := if p.isAbsolute || p.startsHere then 1 else 0

/-- The last piece of `chars`, and how many characters it takes together with its slash. -/
def lastPiece (chars : List Char) : List Char × Nat :=
  let piece := (chars.reverse.takeWhile (!isSlash ·)).reverse
  (piece, if piece.length < chars.length then piece.length + 1 else piece.length)

/-- Cuts empty pieces and dots off the end of `chars`, as far as the first `head` characters. -/
def trimPieces (head : Nat) : Nat → List Char → List Char
  | 0, chars => chars
  | fuel + 1, chars =>
    if chars.length ≤ head then chars
    else
      let (piece, width) := lastPiece (chars.drop head)
      if (Component.ofPiece? piece).isNone then
        trimPieces head fuel (chars.take (chars.length - width))
      else chars

/-- The text without empty pieces and dots at its end. -/
def trimmed (p : FilePath) : List Char := trimPieces p.headLength p.chars.length p.chars

/-- The path without its last component. -/
def parent? (p : FilePath) : Option FilePath :=
  let chars := p.trimmed
  if chars.length ≤ p.headLength then if p.startsHere then some ⟨[]⟩ else none
  else
    let (_, width) := lastPiece (chars.drop p.headLength)
    let rest := chars.take (chars.length - width)
    some ⟨trimPieces p.headLength rest.length rest⟩

/-- The last component, if it is an ordinary name. -/
def fileName? (p : FilePath) : Option (List Char) := p.components.getLast?.bind Component.name?

/-- A file name cut at its last dot: what stands before and after it.  A dot at the start does not
count, and the name of the parent directory has no dot. -/
def splitName (name : List Char) : List Char × Option (List Char) :=
  if name = ['.', '.'] then (name, none)
  else match cutLast? ['.'] name with
    | some ([], _) => (name, none)
    | some (stem, extension) => (stem, some extension)
    | none => (name, none)

/-- The file name without its extension. -/
def fileStem? (p : FilePath) : Option (List Char) := p.fileName?.map fun n => (splitName n).1

/-- The extension of the file name. -/
def extension? (p : FilePath) : Option (List Char) := p.fileName?.bind fun n => (splitName n).2

/-- The components after those of `base`, if the path starts with these. -/
def componentsBelow? (base p : FilePath) : Option (List Component) :=
  base.components.isPrefixOf? p.components

end FilePath

end ServiceScaffold
