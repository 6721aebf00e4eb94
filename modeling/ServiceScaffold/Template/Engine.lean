import ServiceScaffold.Store.Basic
import ServiceScaffold.Template.Cache
import ServiceScaffold.Template.Lookup

/-!
# Template engines

An engine finds templates by name, reads each at most once, and renders them.  Its files and its
cache form a workspace, which is passed from one operation to the next; several engines may work on
one cache.
-/

namespace ServiceScaffold.Template

/-- Where an engine looks for templates, and how it renders them. -/
structure Engine where
  base : FilePath
  /-- The directory below the base that is searched first. -/
  framework : Option String
  renderer : Renderer

/-- What an engine works on. -/
structure Workspace (σ : Type) where
  store : σ
  cache : Cache

/-- An operation on a workspace, which may fail and keeps what was changed before. -/
abbrev Job (σ : Type) := ExceptT Failure (StateM (Workspace σ))

namespace Job

variable {σ α : Type}

/-- Runs a job. -/
def on (job : Job σ α) (w : Workspace σ) : Except Failure α × Workspace σ := job.run w

/-- A result as a job, which changes nothing. -/
def ofResult (result : Except Failure α) : Job σ α := ExceptT.mk (pure result)

/-- Reads a file. -/
def read [FileStore σ] (path : FilePath) : Job σ (Except StoreProblem String) := do
  let w ← get
  let (result, store) := FileStore.read w.store path
  set { w with store }
  pure result

/-- Writes a file. -/
def write [FileStore σ] (path : FilePath) (text : String) : Job σ (Except StoreProblem Unit) := do
  let w ← get
  let (result, store) := FileStore.write w.store path text
  set { w with store }
  pure result

end Job

namespace Engine

variable {σ : Type} [FileStore σ]

/-- The paths that may hold a template, in the order in which they are tried. -/
def candidates (e : Engine) (name : String) : List FilePath :=
  Template.candidates e.base e.framework name

/-- The paths as data. -/
def pathList (paths : List FilePath) : Json := .arr (paths.map fun p => .str p.text)

/-! ### Finding -/

/-- No template can have the name. -/
def invalidName (name : String) : Failure :=
  ((Failure.new .templateNotFound ("invalid template name `" ++ name ++ "`")).withText "template"
    name).withDetail "candidates" (pathList [])

/-- No file stands at any of the candidates. -/
def notFound (name : String) (candidates : List FilePath) : Failure :=
  ((Failure.new .templateNotFound ("template `" ++ name ++ "` not found")).withText "template"
    name).withDetail "candidates" (pathList candidates)

/-- The first candidate at which a file stands. -/
def find (e : Engine) (store : σ) (name : String) : Except Failure FilePath :=
  if isValidName name then
    match (e.candidates name).find? (FileStore.isFile store) with
    | some path => .ok path
    | none => .error (notFound name (e.candidates name))
  else .error (invalidName name)

/-- The path of a template. -/
def resolve (e : Engine) (name : String) : Job σ FilePath := do
  .ofResult (e.find (← get).store name)

/-! ### Loading -/

/-- The file of a template cannot be read. -/
def unreadable (name : String) (path : FilePath) (p : StoreProblem) : Failure :=
  ((Failure.wrap .templateLoad ("failed to read template `" ++ name ++ "`") [.text p.text]).withText
    "template" name).withText "path" path.text

/-- Keeps a template that was read, unless one was kept before. -/
def keep (name : String) (t : Loaded) : Job σ Loaded := do
  let w ← get
  let (kept, cache) := w.cache.insertIfAbsent name t
  set { w with cache }
  pure kept

/-- The template of a name, from the cache or from its file. -/
def loadEntry (e : Engine) (name : String) : Job σ Loaded := do
  match (← get).cache.get? name with
  | some t => pure t
  | none =>
    let path ← e.resolve name
    match ← Job.read path with
    | .ok source => keep name ⟨path, source⟩
    | .error p => throw (unreadable name path p)

/-- The source of a template. -/
def load (e : Engine) (name : String) : Job σ String := do pure (← e.loadEntry name).source

/-! ### Rendering -/

/-- The text of a template for data that have to be written as JSON, which may fail. -/
def renderEncoded (e : Engine) (name : String) (data : Encoded) : Job σ String := do
  let t ← e.loadEntry name
  .ofResult (t.renderEncoded e.renderer name data)

/-- The text of a template for some data. -/
def render (e : Engine) (name : String) (data : Json) : Job σ String :=
  e.renderEncoded name (.ok data)

/-- The text of a template that is given itself; its name appears in failures. -/
def renderSource (e : Engine) (name source : String) (data : Json) : Except Failure String :=
  (Loaded.mk (.ofString name) source).render e.renderer name data

/-- The rendered text cannot be written. -/
def unwritable (name : String) (out : FilePath) (p : StoreProblem) : Failure :=
  ((Failure.wrap .templateWrite ("failed to write " ++ out.text) [.text p.text]).withText "template"
    name).withText "path" out.text

/-- Renders a template for data that have to be written as JSON, and writes the text. -/
def renderEncodedToFile (e : Engine) (name : String) (out : FilePath) (data : Encoded) :
    Job σ Unit := do
  let text ← e.renderEncoded name data
  match ← Job.write out text with
  | .ok _ => pure ()
  | .error p => throw (unwritable name out p)

/-- Renders a template and writes the text. -/
def renderToFile (e : Engine) (name : String) (out : FilePath) (data : Json) : Job σ Unit :=
  e.renderEncodedToFile name out (.ok data)

/-! ### Listing -/

/-- The directory leaves the base. -/
def invalidDirectory (dir : String) : Failure :=
  (Failure.new .templateNotFound ("invalid template directory `" ++ dir ++ "`")).withText "path" dir

/-- The files below a directory cannot be listed. -/
def unlistable (root : FilePath) (p : StoreProblem) : Failure :=
  (Failure.wrap .templateLoad ("failed to list templates in " ++ root.text)
    [.text p.text]).withText "path" root.text

/-- Texts in order, each once. -/
def sortedNames (names : List String) : List String :=
  Keyed.keys (Keyed.sortedFields (names.map fun name => (name, ())))

/-- The names of all templates below a directory of the base. -/
def namesIn (e : Engine) (store : σ) (dir : String) : Except Failure (List String) :=
  if dir.isEmpty || isValidName dir then
    let root := if dir.isEmpty then e.base else e.base.join (.ofString dir)
    match FileStore.files store root with
    | .ok files => .ok (sortedNames (files.filterMap (nameOf? e.base)))
    | .error p => .error (unlistable root p)
  else .error (invalidDirectory dir)

/-- The names of all templates below a directory of the base. -/
def list (e : Engine) (dir : String) : Job σ (List String) := do
  .ofResult (e.namesIn (← get).store dir)

/-- Loads templates one after the other and counts those that could be loaded. -/
def loadAll (e : Engine) : List String → Job σ Nat
  | [] => pure 0
  | name :: rest => do
    let loaded ← tryCatch (do let _ ← e.loadEntry name; pure 1) fun _ => pure 0
    pure (loaded + (← loadAll e rest))

/-- Loads all templates below a directory of the base; gives the number of those that could be
loaded. -/
def preload (e : Engine) (dir : String) : Job σ Nat := do
  e.loadAll (← e.list dir)

end Engine

end ServiceScaffold.Template
