import ServiceScaffold.FilePath.Basic

/-!
# File stores

What the rest of the library needs of files: to ask for one, to read, to write, and to list all
files below a directory.  There are two stores, one in memory and one with directories.
-/

namespace ServiceScaffold

/-- Why a store refuses an operation. -/
inductive StoreProblem where
  /-- Nothing stands at a path. -/
  | missing
  /-- No file of a store in memory has the path. -/
  | unknown (path : FilePath)
  | denied
  /-- Something stands where a directory is to be made. -/
  | occupied
  | notDirectory
  | isDirectory
  /-- The bytes of a file are no text. -/
  | notText
  deriving DecidableEq, Repr, Inhabited

/-- The text of a problem. -/
def StoreProblem.text : StoreProblem → String
  | .missing => "No such file or directory (os error 2)"
  | .unknown path => path.text ++ " not found"
  | .denied => "Permission denied (os error 13)"
  | .occupied => "File exists (os error 17)"
  | .notDirectory => "Not a directory (os error 20)"
  | .isDirectory => "Is a directory (os error 21)"
  | .notText => "stream did not contain valid UTF-8"

/-- A store of files. -/
class FileStore (σ : Type) where
  /-- A file stands at the path. -/
  isFile : σ → FilePath → Bool
  /-- The text of a file; the store may note that it was read. -/
  read : σ → FilePath → Except StoreProblem String × σ
  /-- Writes a file and the directories above it. -/
  write : σ → FilePath → String → Except StoreProblem Unit × σ
  /-- The files below a directory, in order. -/
  files : σ → FilePath → Except StoreProblem (List FilePath)

end ServiceScaffold
