import ServiceScaffold.Schema.Roles
import ServiceScaffold.Text.Blank
import ServiceScaffold.Text.Case

/-!
# Documentation comments

A documentation comment is a block that opens with `/**`.  Reading one (`DocComment.parse`) strips
the decoration of its lines and separates the description from the tags.
-/

namespace ServiceScaffold

open Text

/-- A tag of a documentation comment, such as `@resource`, with the text after it. -/
structure DocTag where
  name : List Char
  text : List Char
  deriving DecidableEq, Repr, Inhabited

/-- What a documentation comment says. -/
structure DocComment where
  description : Option (List Char)
  tags : List DocTag
  deriving DecidableEq, Repr, Inhabited

/-- A tag with the text of a further line. -/
def DocTag.extend (tag : DocTag) (line : List Char) : DocTag :=
  if line.isEmpty then tag
  else if tag.text.isEmpty then { tag with text := trim line }
  else { tag with text := tag.text ++ ' ' :: trim line }

namespace DocComment

/-- What opens a documentation comment. -/
def opener : List Char := "/**".toList

/-- What closes a block comment. -/
def closer : List Char := "*/".toList

/-- What stands inside a block: without blanks around it, its opener and its closer.  If it does
not open or close as a block, the text is taken as it is. -/
def body (raw : List Char) : List Char :=
  (stripBack? closer ((stripFront? opener (trim raw)).getD raw)).getD raw

/-- A line without the blanks at its start, one star and one blank after it. -/
def undecorated (line : List Char) : List Char :=
  let afterStar := match trimStart line with
    | '*' :: rest => rest
    | rest => rest
  match afterStar with
  | c :: rest => if isBlank c then rest else c :: rest
  | [] => []

/-- A character that may stand in a tag name after its first letter. -/
def isTagChar (c : Char) : Bool := isWordChar c || c == '-'

/-- A line that starts with a tag: an at sign, a name that starts with a letter, and text. -/
def tagLine? : List Char → Option DocTag
  | '@' :: c :: rest =>
    if c.isAlpha then
      some ⟨c :: rest.takeWhile isTagChar, trim (rest.dropWhile isTagChar)⟩
    else none
  | _ => none

/-- Lines read so far: those of the description, and the tags with the latest one first. -/
structure Reading where
  description : List (List Char) := []
  tags : List DocTag := []

/-- Reads one more line: a tag line starts a tag, another line goes to the latest tag, and to the
description as long as there is no tag. -/
def Reading.add (r : Reading) (line : List Char) : Reading :=
  match tagLine? line with
  | some tag => { r with tags := tag :: r.tags }
  | none =>
    match r.tags with
    | latest :: earlier => { r with tags := latest.extend line :: earlier }
    | [] => { r with description := r.description ++ [line] }

/-- The line holds nothing but blanks. -/
def isBlankLine (line : List Char) : Bool := line.all isBlank

/-- Without the blank lines at both ends. -/
def trimLines (lines : List (List Char)) : List (List Char) :=
  ((lines.reverse.dropWhile isBlankLine).reverse).dropWhile isBlankLine

/-- Reads a documentation comment. -/
def parse (raw : List Char) : DocComment :=
  let reading := (lines (body raw)).foldl
    (fun (r : Reading) line => r.add (trimEnd (undecorated line))) {}
  let description := trimLines reading.description
  ⟨if description.isEmpty then none else some (joinWith ['\n'] description), reading.tags.reverse⟩

/-- The roles that the tags mark, in the order of roles. -/
def roles (doc : DocComment) : List Role :=
  Role.all.filter fun role => doc.tags.any fun tag => tag.name == role.tag.toList

/-- The documentation comment that `before` ends with, blanks after it aside.  The block starts at
the last opener and holds no closer but the one at its end. -/
def trailingBlock? (before : List Char) : Option (List Char) :=
  let text := trimEnd before
  if !closer.isSuffixOf text then none
  else match cutLast? opener text with
    | none => none
    | some (_, rest) =>
      let block := opener ++ rest
      if block.length < 5 then none
      else if contains closer (rest.take (rest.length - 2)) then none
      else some block

end DocComment

end ServiceScaffold
