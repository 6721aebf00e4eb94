import ServiceScaffold.FilePath.Basic

/-!
# Where a template may stand

A template name leads to a list of candidate paths (`candidates`), those below the directory of the
framework before the general ones.  Names are confined to their directory (`isValidName`), and
`nameOf?` leads back from a file to the name of its template.
-/

namespace ServiceScaffold.Template

open Text

/-- The extensions of template files, in the order in which they are tried. -/
def extensions : List (List Char) := ["jinja".toList, "j2".toList]

/-- `name` with an extension added. -/
def withExtension (name extension : List Char) : List Char := name ++ '.' :: extension

/-- What stands before the first dot. -/
def stemOf (file : List Char) : List Char := file.takeWhile (· != '.')

/-- The paths below `dir` that may hold a template, in the order in which they are tried: the name
itself, the name with an extension, the file in a directory named after its stem, and that same
directory below the parent of the name. -/
def patternsIn (dir : FilePath) (name : List Char) : List FilePath :=
  let rel : FilePath := ⟨name⟩
  let file := rel.fileName?.getD name
  let stem : FilePath := ⟨stemOf file⟩
  let nested (base : FilePath) : List FilePath :=
    extensions.map fun e => (base.join stem).join ⟨withExtension file e⟩
  let below := match rel.parent? with
    | some parent => if parent.chars.isEmpty then [] else nested (dir.join parent)
    | none => []
  [dir.join rel] ++ extensions.map (fun e => dir.join ⟨withExtension name e⟩) ++ nested dir ++ below

/-- Drops every path that is the same place as an earlier one. -/
def dropRepeated : List FilePath → List FilePath → List FilePath
  | kept, [] => kept
  | kept, p :: rest =>
    if kept.any (·.same p) then dropRepeated kept rest else dropRepeated (kept ++ [p]) rest

/-- The directories to search: that of the framework, if one is set, then the base. -/
def searchDirs (base : FilePath) (framework : Option String) : List FilePath :=
  match framework with
  | some name => if name.isEmpty then [base] else [base.join (.ofString name), base]
  | none => [base]

/-- All paths that may hold the template, in the order in which they are tried. -/
def candidates (base : FilePath) (framework : Option String) (name : String) : List FilePath :=
  dropRepeated [] ((searchDirs base framework).flatMap (patternsIn · name.toList))

/-- The name is not empty and its components stay inside the directory. -/
def isValidName (name : String) : Bool :=
  !name.isEmpty && (FilePath.ofString name).components.all Component.isInner

/-- The name of the template that a file below `base` holds: its path from there, with slashes and
without the extension of template files. -/
def nameOf? (base file : FilePath) : Option String := do
  let below ← FilePath.componentsBelow? base file
  let last ← below.getLast?
  let name ← last.name?
  let (stem, extension) := FilePath.splitName name
  let extension ← extension
  if !extensions.contains extension then none
  let parts := below.dropLast.filterMap Component.name? ++
    ((Component.ofPiece? stem).bind Component.name?).toList
  if parts.isEmpty then none else some (String.ofList (joinWith ['/'] parts))

end ServiceScaffold.Template
