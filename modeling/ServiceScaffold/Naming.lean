import ServiceScaffold.Text.Case
import ServiceScaffold.Text.Blank

/-!
# Names

The written forms of a declared name: `kebab` for routes and file names, `plural` for collections,
and the word forms `snake`, `camel` and `pascal`, which all start from the words of a name
(`words`).
-/

namespace ServiceScaffold.Naming

open Text

/-- Kebab case of `cs` after the character `before`: a hyphen stands between a lower case character
and the upper case one that follows it, and every character is put in lower case. -/
def kebabAfter : Option Char → List Char → List Char
  | _, [] => []
  | before, c :: cs =>
    (if before.any isLower && isUpper c then ['-'] else []) ++ lowerChars c ++
      kebabAfter (some c) cs

/-- Kebab case: `CalendarEvent` becomes `calendar-event`, `HTTPServer` becomes `httpserver`. -/
def kebabChars (cs : List Char) : List Char := kebabAfter none cs

/-- The lower case vowels after which a final `y` stays. -/
def isVowel (c : Char) : Bool := ['a', 'e', 'i', 'o', 'u'].contains c

/-- The endings, in lower case, after which the plural takes `es`. -/
def hissingEnds : List (List Char) := [['s'], ['x'], ['z'], ['c', 'h'], ['s', 'h']]

/-- The word ends in a hissing sound. -/
def endsHissing (lower : List Char) : Bool := hissingEnds.any (·.isSuffixOf lower)

/-- The word ends in a `y` that follows another character, and that one is no vowel. -/
def endsInHardY (lower : List Char) : Bool :=
  match lower.reverse with
  | 'y' :: c :: _ => !isVowel c
  | _ => false

/-- Plural of a word: `es` after a hissing end, `ies` for a hard `y`, else `s`.  The ends are
looked at in lower case; the empty word has an empty plural. -/
def pluralChars (word : List Char) : List Char :=
  let lower := toLower word
  if word.isEmpty then []
  else if endsHissing lower then word ++ ['e', 's']
  else if endsInHardY lower then word.dropLast ++ ['i', 'e', 's']
  else word ++ ['s']

/-- A hyphen, an underscore or a blank: these separate words and belong to none. -/
def isSeparator (c : Char) : Bool := c == '_' || c == '-' || isBlank c

/-- A word starts at the upper case character `c`, given the character before it and the one after
it: the one before is a lower case character or a digit, or it is in upper case and the one after
is in lower case (`HTTPServer` is `http`, `server`). -/
def startsWord (before : Char) (c : Char) (after : Option Char) : Bool :=
  isUpper c && (isLower before || before.isDigit || (isUpper before && after.any isLower))

/-- The words of `cs`, given the word read so far and the character before `cs`. -/
def wordsAfter : List Char → Char → List Char → List (List Char)
  | current, _, [] => if current.isEmpty then [] else [current]
  | current, before, c :: cs =>
    if isSeparator c then
      if current.isEmpty then wordsAfter [] c cs else current :: wordsAfter [] c cs
    else if !current.isEmpty && startsWord before c cs.head? then
      current :: wordsAfter (lowerChars c) c cs
    else wordsAfter (current ++ lowerChars c) c cs

/-- The words of a name, in lower case. -/
def words (cs : List Char) : List (List Char) := wordsAfter [] ' ' cs

/-- `CalendarEvent` → `calendar_event`. -/
def snakeChars (cs : List Char) : List Char := joinWith ['_'] (words cs)

/-- `calendar_event` → `CalendarEvent`. -/
def pascalChars (cs : List Char) : List Char := (words cs).flatMap capitalize

/-- `CalendarEvent` → `calendarEvent`. -/
def camelChars (cs : List Char) : List Char :=
  match words cs with
  | [] => []
  | first :: others => first ++ others.flatMap capitalize

/-- Hyphenated lower case of a name. -/
def kebab (name : String) : String := String.ofList (kebabChars name.toList)

/-- Plural of a word. -/
def plural (word : String) : String := String.ofList (pluralChars word.toList)

/-- The route segment of a resource: the plural of its name in kebab case. -/
def routeSegment (name : String) : String := plural (kebab name)

/-- Words of a name joined by underscores. -/
def snake (name : String) : String := String.ofList (snakeChars name.toList)

/-- Words of a name, all but the first capitalized. -/
def camel (name : String) : String := String.ofList (camelChars name.toList)

/-- Words of a name, all capitalized. -/
def pascal (name : String) : String := String.ofList (pascalChars name.toList)

end ServiceScaffold.Naming
