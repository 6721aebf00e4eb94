import ServiceScaffold.Store.Basic

/-!
# Files in directories

A disk is a tree of entries, each under the list of names that leads there from the root, together
with the directory in which relative paths start.  A path is followed name by name (`Disk.follow`),
so that every name but the last has to be a directory.
-/

namespace ServiceScaffold

/-- Names that lead from the root to an entry. -/
abbrev Trail := List (List Char)

-- the instance of the core library, whatever else is imported
instance (priority := high) decEqBytes : DecidableEq ByteArray := ByteArray.instDecidableEq

/-- What stands under a name. -/
inductive DiskEntry where
  | file (bytes : ByteArray)
  | directory (readable : Bool)
  deriving DecidableEq, Inhabited

/-- The entries below the root. -/
structure Disk where
  entries : List (Trail × DiskEntry)
  /-- The directory in which relative paths start. -/
  home : Trail
  deriving Inhabited

/-- Where a path leads; nothing may stand there, but its directory does. -/
structure DiskPlace where
  trail : Trail
  entry : Option DiskEntry
  deriving Inhabited

namespace Disk

/-- A disk with an empty directory in which relative paths start, and those above it. -/
def startingAt (home : Trail) : Disk where
  entries := (List.range home.length).map fun n => (home.take (n + 1), .directory true)
  home := home

/-! ### Entries -/

/-- What stands at the end of a trail.  The root is a directory. -/
def standing? (d : Disk) (trail : Trail) : Option DiskEntry :=
  if trail = [] then some (.directory true)
  else (d.entries.find? fun e => e.1 == trail).map Prod.snd

/-- Puts an entry at the end of a trail. -/
def put (d : Disk) (trail : Trail) (entry : DiskEntry) : Disk :=
  if d.entries.any fun e => e.1 == trail then
    { d with entries := d.entries.map fun e => if e.1 == trail then (trail, entry) else e }
  else { d with entries := d.entries ++ [(trail, entry)] }

/-- Takes an entry and all entries below it away. -/
def erase (d : Disk) (trail : Trail) : Disk :=
  { d with entries := d.entries.filter fun e => !trail.isPrefixOf e.1 }

/-- The entries of a directory, with their names. -/
def children (d : Disk) (trail : Trail) : List (List Char × DiskEntry) :=
  d.entries.filterMap fun (t, e) =>
    match t.getLast? with
    | some name => if t.dropLast = trail then some (name, e) else none
    | none => none

/-! ### Paths -/

/-- Follows the steps of a path from a directory on.  The directory above the root is the root. -/
def follow (d : Disk) (trail : Trail) : List Component → Except StoreProblem DiskPlace
  | [] => .ok ⟨trail, d.standing? trail⟩
  | .root :: rest => follow d [] rest
  | .current :: rest => follow d trail rest
  | .parent :: rest => follow d trail.dropLast rest
  | .normal name :: rest =>
    match d.standing? (trail ++ [name]), rest with
    | some (.directory _), _ => follow d (trail ++ [name]) rest
    | some (.file bytes), [] => .ok ⟨trail ++ [name], some (.file bytes)⟩
    | some (.file _), _ => .error .notDirectory
    | none, [] => .ok ⟨trail ++ [name], none⟩
    | none, _ => .error .missing

/-- Where a step leads from a directory, as it is written. -/
def stepFrom (trail : Trail) : Component → Trail
  | .root => []
  | .current => trail
  | .parent => trail.dropLast
  | .normal name => trail ++ [name]

/-- Where steps lead from a directory, as they are written. -/
def trailFrom (trail : Trail) (steps : List Component) : Trail := steps.foldl stepFrom trail

/-- The trail along which a path leads, if all names on the way are directories. -/
def trailOf (d : Disk) (p : FilePath) : Trail := trailFrom d.home p.components

/-- The path ends with a slash. -/
def endsInSlash (p : FilePath) : Bool := p.chars.getLast? == some '/'

/-- The last piece of the path is a dot. -/
def endsInDot (p : FilePath) : Bool :=
  match p.chars.reverse.dropWhile FilePath.isSlash with
  | ['.'] => true
  | '.' :: '/' :: _ => true
  | _ => false

/-- The path can only lead to a directory: it ends with a slash or with a dot. -/
def wantsDirectory (p : FilePath) : Bool := endsInSlash p || endsInDot p

/-- Where a path leads.  The empty path leads nowhere. -/
def place (d : Disk) (p : FilePath) : Except StoreProblem DiskPlace :=
  if p.chars.isEmpty then .error .missing else d.follow d.home p.components

/-- What stands at a path. -/
def stat (d : Disk) (p : FilePath) : Except StoreProblem (Trail × DiskEntry) :=
  match d.place p with
  | .error e => .error e
  | .ok ⟨_, none⟩ => .error .missing
  | .ok ⟨trail, some (.file bytes)⟩ =>
    if wantsDirectory p then .error .notDirectory else .ok (trail, .file bytes)
  | .ok ⟨trail, some entry⟩ => .ok (trail, entry)

/-- Something stands at the path. -/
def pathExists (d : Disk) (p : FilePath) : Bool := (d.stat p).toBool

/-- A file stands at the path. -/
def isFile (d : Disk) (p : FilePath) : Bool :=
  match d.stat p with
  | .ok (_, .file _) => true
  | _ => false

/-- A directory stands at the path. -/
def isDirectory (d : Disk) (p : FilePath) : Bool :=
  match d.stat p with
  | .ok (_, .directory _) => true
  | _ => false

/-! ### Reading -/

/-- The bytes of a file. -/
def readBytes (d : Disk) (p : FilePath) : Except StoreProblem ByteArray :=
  match d.stat p with
  | .error e => .error e
  | .ok (_, .directory _) => .error .isDirectory
  | .ok (_, .file bytes) => .ok bytes

/-- The text of a file. -/
def readText (d : Disk) (p : FilePath) : Except StoreProblem String :=
  (d.readBytes p).bind fun bytes =>
    match String.fromUTF8? bytes with
    | some text => .ok text
    | none => .error .notText

/-- The entries of a directory, with their names. -/
def readDirectory (d : Disk) (p : FilePath) : Except StoreProblem (List (List Char × DiskEntry)) :=
  match d.stat p with
  | .error e => .error e
  | .ok (_, .file _) => .error .notDirectory
  | .ok (_, .directory false) => .error .denied
  | .ok (trail, .directory true) => .ok (d.children trail)

/-- The paths of the entries that are files. -/
def filePaths (dir : FilePath) (entries : List (List Char × DiskEntry)) : List FilePath :=
  entries.filterMap fun
    | (name, .file _) => some (dir.join ⟨name⟩)
    | (_, .directory _) => none

/-- The paths of the entries that are directories. -/
def directoryPaths (dir : FilePath) (entries : List (List Char × DiskEntry)) : List FilePath :=
  entries.filterMap fun
    | (_, .file _) => none
    | (name, .directory _) => some (dir.join ⟨name⟩)

/-- Adds the files below the pending directories, of which at most `fuel` are read.  The directory
that was found last comes first. -/
def walk (d : Disk) : Nat → List FilePath → List FilePath → Except StoreProblem (List FilePath)
  | _, [], found => .ok found
  | 0, _ :: _, found => .ok found
  | fuel + 1, dir :: pending, found =>
    match d.readDirectory dir with
    | .error e => .error e
    | .ok entries =>
      walk d fuel ((directoryPaths dir entries).reverse ++ pending) (found ++ filePaths dir entries)

/-- The files below a directory, sorted by path.  Each directory is read once, so the number of
entries bounds the reading. -/
def files (d : Disk) (dir : FilePath) : Except StoreProblem (List FilePath) :=
  (d.walk (d.entries.length + 1) [dir] []).map fun found =>
    found.mergeSort fun p q => !q.before p

/-! ### Writing -/

/-- Makes a directory. -/
def makeDirectory (d : Disk) (p : FilePath) : Except StoreProblem Disk :=
  match d.place p with
  | .error e => .error e
  | .ok ⟨_, some _⟩ => .error .occupied
  | .ok ⟨trail, none⟩ => .ok (d.put trail (.directory true))

/-- Makes a directory unless it is there. -/
def ensureDirectory (d : Disk) (p : FilePath) : Except StoreProblem Unit × Disk :=
  match d.makeDirectory p with
  | .ok d => (.ok (), d)
  | .error e => (if d.isDirectory p then .ok () else .error e, d)

/-- Makes a directory and those above it, at most `fuel` of them. -/
def ensureDirectories (d : Disk) : Nat → FilePath → Except StoreProblem Unit × Disk
  | 0, _ => (.error .missing, d)
  | fuel + 1, p =>
    if p.chars.isEmpty then (.ok (), d)
    else
      match d.makeDirectory p with
      | .ok d => (.ok (), d)
      | .error .missing =>
        match p.parent? with
        | none => (.error .missing, d)
        | some parent =>
          match ensureDirectories d fuel parent with
          | (.error e, d) => (.error e, d)
          | (.ok _, d) => d.ensureDirectory p
      | .error e => (if d.isDirectory p then .ok () else .error e, d)

/-- Writes a file into a directory that is there. -/
def writeBytes (d : Disk) (p : FilePath) (bytes : ByteArray) : Except StoreProblem Unit × Disk :=
  match d.place p with
  | .error e => (.error e, d)
  | .ok ⟨_, some (.directory _)⟩ => (.error .isDirectory, d)
  | .ok ⟨trail, entry⟩ =>
    if endsInDot p then (.error (if entry.isSome then .notDirectory else .missing), d)
    else if endsInSlash p then (.error .isDirectory, d)
    else (.ok (), d.put trail (.file bytes))

/-- Makes the directories above a path. -/
def ensureParent (d : Disk) (p : FilePath) : Except StoreProblem Unit × Disk :=
  match p.parent? with
  | some parent => d.ensureDirectories (parent.chars.length + 1) parent
  | none => (.ok (), d)

/-- Writes a file and the directories above it. -/
def write (d : Disk) (p : FilePath) (bytes : ByteArray) : Except StoreProblem Unit × Disk :=
  match d.ensureParent p with
  | (.error e, d) => (.error e, d)
  | (.ok _, d) => d.writeBytes p bytes

instance : FileStore Disk where
  isFile := isFile
  read d p := (d.readText p, d)
  write d p text := d.write p text.toUTF8
  files := files

end Disk

end ServiceScaffold
