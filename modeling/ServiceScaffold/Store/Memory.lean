import ServiceScaffold.Store.Basic

/-!
# Files in memory

Texts under paths, sorted by path, with the number of times that each was read.  There are no
directories: a file is below a directory if its path starts with that of the directory.
-/

namespace ServiceScaffold

/-- A store in memory. -/
structure MemoryStore where
  texts : List (FilePath × String)
  reads : List (FilePath × Nat)
  deriving Repr, Inhabited

namespace MemoryStore

/-- Puts a value under a path, in order.  A path that is there already keeps its spelling. -/
def put {α : Type} (path : FilePath) (value : α) : List (FilePath × α) → List (FilePath × α)
  | [] => [(path, value)]
  | (p, v) :: rest =>
    if path.same p then (p, value) :: rest
    else if path.before p then (path, value) :: (p, v) :: rest
    else (p, v) :: put path value rest

/-- What stands under a path. -/
def lookup {α : Type} (path : FilePath) : List (FilePath × α) → Option α
  | [] => none
  | (p, v) :: rest => if path.same p then some v else lookup path rest

/-- A store without files. -/
def empty : MemoryStore := ⟨[], []⟩

/-- Puts a file. -/
def insert (s : MemoryStore) (path : FilePath) (text : String) : MemoryStore :=
  { s with texts := put path text s.texts }

/-- The text of a file, which does not count as a read. -/
def contents (s : MemoryStore) (path : FilePath) : Option String := lookup path s.texts

/-- How often a file was read. -/
def readCount (s : MemoryStore) (path : FilePath) : Nat := (lookup path s.reads).getD 0

/-- How often files were read. -/
def totalReads (s : MemoryStore) : Nat := (s.reads.map Prod.snd).foldr (· + ·) 0

/-- Reads a file and counts it. -/
def read (s : MemoryStore) (path : FilePath) : Except StoreProblem String × MemoryStore :=
  match s.contents path with
  | some text => (.ok text, { s with reads := put path (s.readCount path + 1) s.reads })
  | none => (.error (.unknown path), s)

/-- The files whose paths start with that of a directory. -/
def files (s : MemoryStore) (dir : FilePath) : List FilePath :=
  (s.texts.map Prod.fst).filter fun p => (FilePath.componentsBelow? dir p).isSome

instance : FileStore MemoryStore where
  isFile s path := (s.contents path).isSome
  read := read
  write s path text := (.ok (), s.insert path text)
  files s dir := .ok (s.files dir)

end MemoryStore

end ServiceScaffold
