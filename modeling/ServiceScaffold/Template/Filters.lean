import ServiceScaffold.Naming
import ServiceScaffold.Template.Operators
import ServiceScaffold.Text.Case

/-!
# Filters, tests and functions of templates

What a template can do with a value by name.  A filter gets the value and further arguments, the
last of which may hold the arguments that have names.
-/

namespace ServiceScaffold.Template

open Text

/-! ### Arguments -/

/-- The truth value of an argument, which is false if it is not given. -/
def truth : Option Value → Result Bool
  | none => .ok false
  | some (.bool b) => .ok b
  | some v => .error (.invalid ("cannot convert " ++ v.kind.text ++ " to bool"))

/-- The arguments of a call. -/
structure Arguments where
  positional : List Value
  named : List (Value × Value)
  deriving Inhabited

namespace Arguments

/-- Separates the arguments with names. -/
def ofValues (values : List Value) : Arguments :=
  match values.getLast? with
  | some (.named entries) => ⟨values.dropLast, entries⟩
  | _ => ⟨values, []⟩

/-- The argument of a name. -/
def named? (a : Arguments) (name : String) : Option Value :=
  match Value.lookup (.text name) a.named with
  | some .none => none
  | some .undefined => none
  | other => other

/-- There are no arguments with other names. -/
def onlyNamed (a : Arguments) (names : List String) : Result Unit :=
  match a.named.find? fun (k, _) => !(k.text?.any names.contains) with
  | some (.text k, _) => .error (.of .tooManyArguments ("unknown keyword argument '" ++ k ++ "'"))
  | some _ => .error (.invalid "non string keys passed to kwargs")
  | none => .ok ()

/-- An argument that is a text. -/
def namedText (a : Arguments) (name : String) : Result (Option String) :=
  match a.named? name with
  | none => .ok none
  | some (.text s) => .ok (some s)
  | some _ => .error (.invalid "value is not a string")

/-- An argument that is a truth value. -/
def flag (a : Arguments) (name : String) : Result Bool := truth (a.named? name)

/-- There are no arguments by position. -/
def noPositional (a : Arguments) : Result Unit :=
  if a.positional.isEmpty then .ok () else .error (.plain .tooManyArguments)

end Arguments

/-- At most `n` arguments. -/
def atMost (n : Nat) (args : List Value) : Result Unit :=
  if args.length ≤ n then .ok () else .error (.plain .tooManyArguments)

/-- An argument that has to be there. -/
def required (args : List Value) (i : Nat) : Result Value :=
  match args[i]? with
  | some v => .ok v
  | none => .error (.plain .missingArgument)

/-- An argument that may be left out. -/
def optional (args : List Value) (i : Nat) : Option Value :=
  match args[i]? with
  | some .undefined => none
  | some .none => none
  | other => other

/-- The text that a value shows. -/
def shownText : Value → Result (List Char)
  | .named _ => .error (.invalid "cannot convert kwargs to string")
  | v => .ok v.display.toList

/-- The text that an argument shows, if it is given. -/
def optionalText (args : List Value) (i : Nat) : Result (Option (List Char)) :=
  match optional args i with
  | some v => (shownText v).map some
  | none => .ok none

/-- An argument that has to be a text. -/
def requiredText (args : List Value) (i : Nat) : Result String :=
  (required args i).bind fun v =>
    match v.text? with
    | some s => .ok s
    | none => .error (.invalid "value is not a string")

/-- A whole number of 64 bits, which `type` is the name of. -/
def wholeArgument (type : String) (v : Value) : Result Int :=
  match v.index? with
  | some n => .ok n
  | none => .error (.invalid ("cannot convert " ++ v.kind.text ++ " to " ++ type))

/-! ### Texts -/

/-- A text value. -/
def textValue (cs : List Char) : Value := .text (String.ofList cs)

/-- Punctuation of ASCII. -/
def isPunctuation (c : Char) : Bool :=
  33 ≤ c.toNat && c.toNat ≤ 126 && !c.isAlphanum

/-- Each word starts in upper case and goes on in lower case; `fresh` says that a word starts. -/
def titleCase (fresh : Bool) : List Char → List Char
  | [] => []
  | c :: rest =>
    if isPunctuation c || isBlank c then c :: titleCase true rest
    else (if fresh then upperChars c else lowerChars c) ++ titleCase false rest

/-- The first character in upper case and the others in lower case. -/
def sentenceCase : List Char → List Char
  | [] => []
  | c :: rest => upperChars c ++ toLower rest

/-- Every occurrence of a part becomes another text; an empty part occurs around every
character. -/
def replaceText (part image cs : List Char) : List Char :=
  if part.isEmpty then image ++ cs.flatMap fun c => c :: image
  else replaceAll part image (cs.length + 1) cs

/-- The pieces between at most `n` occurrences of a separator. -/
def splitText (separator : List Char) : Nat → List Char → List (List Char)
  | 0, cs => [cs]
  | n + 1, cs =>
    match cut? separator cs with
    | some (piece, rest) => piece :: splitText separator n rest
    | none => [cs]

/-- The characters of a text, at most `n` of them on their own. -/
def splitOff : Nat → List Char → List (List Char)
  | 0, cs => [cs]
  | _ + 1, [] => [[]]
  | n + 1, c :: rest => [c] :: splitOff n rest

/-- The pieces between at most `n` of the places around the characters of a text. -/
def splitCharacters : Nat → List Char → List (List Char)
  | 0, cs => [cs]
  | n + 1, cs => [] :: splitOff n cs

/-- The pieces between at most `n` blanks. -/
def splitBlanks : Nat → List Char → List (List Char)
  | 0, cs => [cs]
  | n + 1, cs =>
    match cs.dropWhile (!isBlank ·) with
    | [] => [cs]
    | _ :: rest => cs.takeWhile (!isBlank ·) :: splitBlanks n rest

/-- The texts of items with a separator between them. -/
def joinTexts (separator : List Char) (items : List Value) : List Char :=
  joinWith separator (items.map fun item => item.display.toList)

/-! ### Numbers -/

/-- The problem of a text that is no number. -/
def badNumber (s : String) : Problem :=
  if s.isEmpty then .invalid "cannot parse float from empty string"
  else .invalid "invalid float literal"

/-- The whole number that decimal digits with an optional sign write. -/
def parseWhole? (cs : List Char) : Option Int :=
  let (negative, digits) := Number.spanSign cs
  if digits.isEmpty || !digits.all Char.isDigit then none
  else
    let n := Int.ofNat (Number.natOfDigits digits)
    let n := if negative then -n else n
    if Value.isWide n then some n else none

/-- A double without its fraction, as far as 128 bits hold it. -/
def wholePart (x : Binary64) : Int :=
  if x.isNaN then 0
  else if !x.isFinite then if x.isNegative then -Int.pow 2 127 else Int.pow 2 127 - 1
  else max (-Int.pow 2 127) (min (Int.pow 2 127 - 1) x.truncated)

/-- The whole number of a value. -/
def toWhole (v : Value) : Result Value :=
  match v with
  | .undefined => .ok (.int 0)
  | .none => .ok (.int 0)
  | .bool b => .ok (.int (if b then 1 else 0))
  | .int n => .ok (.int n)
  | .float x => .ok (.int (wholePart x))
  | .text s =>
    match parseWhole? s.toList with
    | some n => .ok (.int n)
    | none =>
      match Number.parseDecimal? s.toList with
      | some x => .ok (.int (wholePart x))
      | none => .error (badNumber s)
  | _ => .error (.invalid ("cannot convert " ++ v.kind.text ++ " to integer"))

/-- The double of a value. -/
def toDouble (v : Value) : Result Value :=
  match v with
  | .undefined => .ok (.float (Binary64.ofInt 0))
  | .none => .ok (.float (Binary64.ofInt 0))
  | .text s =>
    match Number.parseDecimal? s.toList with
    | some x => .ok (.float x)
    | none => .error (badNumber s)
  | _ =>
    match v.float? false with
    | some x => .ok (.float x)
    | none => .error (.invalid ("cannot convert " ++ v.kind.text ++ " to float"))

/-! ### Lists -/

/-- The items of a value that is made a list. -/
def listItems (v : Value) : Result (List Value) :=
  v.items.mapError fun p => (Problem.invalid "cannot convert value to list").because p

/-- The place that a name of digits counts, in 64 bits. -/
def place? (name : List Char) : Option Nat :=
  let digits := match name with
    | '+' :: rest => rest
    | _ => name
  if digits.isEmpty || !digits.all Char.isDigit then none
  else
    let n := Number.natOfDigits digits
    if n < Nat.pow 2 64 then some n else none

/-- What stands under names with dots between them. -/
def atPath : List (List Char) → Value → Result Value
  | [], v => .ok v
  | name :: rest, v =>
    if v.isUndefined then .error (.plain .undefinedValue)
    else
      let part := match place? name with
        | some n => v.item? (.int n)
        | none => v.attribute? (String.ofList name)
      atPath rest (part.getD .undefined)

/-- What stands under an attribute, which is a path. -/
def attributeAt (path : String) (v : Value) : Result Value :=
  atPath (splitOn (· == '.') path.toList) v

/-- What stands under an attribute, which is a path if it is a text. -/
def attributeOf (place v : Value) : Result Value :=
  match place with
  | .text path => attributeAt path v
  | key =>
    if v.isUndefined then .error (.plain .undefinedValue) else .ok ((v.item? key).getD .undefined)

/-- Order of values where the case of the letters of ASCII may not count. -/
def compareKeys (caseSensitive : Bool) (v w : Value) : Ordering :=
  match caseSensitive, v, w with
  | false, .text s, .text t => compareOfLessAndEq (s.map Char.toLower) (t.map Char.toLower)
  | _, _, _ => v.compare w

/-- Order of values by attributes with commas between them.  If there is only one, a value without
a member on the way to it is equal to all others; if there are several, they are compared one after
the other, and the case of letters counts. -/
def compareAttributes (caseSensitive : Bool) (attributes : String) (v w : Value) : Ordering :=
  match splitOn (· == ',') attributes.toList with
  | [_] =>
    match attributeAt attributes v, attributeAt attributes w with
    | .ok a, .ok b => compareKeys caseSensitive a b
    | _, _ => .eq
  | paths =>
    let keys (v : Value) : List Value := paths.map fun path =>
      (attributeAt (String.ofList (trim path)) v).toOption.getD .undefined
    Value.compareItems (keys v) (keys w)

/-- Sorted items, of which the last comes first, with another one before all that it does not come
before. -/
def settle (order : Value → Value → Ordering) (v : Value) : List Value → List Value
  | [] => [v]
  | w :: rest => if order v w == .lt then w :: settle order v rest else v :: w :: rest

/-- The greatest number of items that are sorted by putting each among those before it. -/
def fewItems : Nat := 20

/-- The items in order; equal ones stay as they stand. -/
def sortItems (order : Value → Value → Ordering) (items : List Value) : List Value :=
  if items.length ≤ fewItems then
    (items.foldl (fun sorted v => settle order v sorted) []).reverse
  else items.mergeSort fun v w => order v w != .gt

/-- The items whose keys differ from those of all items before them. -/
def distinctItems (key : Value → Value) : List Value → List Value → List Value
  | _, [] => []
  | seen, v :: rest =>
    let k := key v
    if seen.any fun other => other.compare k == .eq then distinctItems key seen rest
    else v :: distinctItems key (k :: seen) rest

/-- The items from the last to the first. -/
def reversed (v : Value) : Result Value :=
  match v with
  | .undefined => .ok v
  | .none => .ok v
  | .text s => .ok (textValue s.toList.reverse)
  | _ =>
    match v.members? with
    | some items => .ok (.stream true items.reverse)
    | none => .error (.invalid ("cannot reverse values of type " ++ v.kind.text))

/-- The first item. -/
def firstItem (v : Value) : Result Value :=
  match v with
  | .text s => .ok ((Value.characters s).headD .undefined)
  | _ =>
    match v.members? with
    | some items => .ok (items.headD .undefined)
    | none => .error (.invalid "cannot get first item from value")

/-- The last item. -/
def lastItem (v : Value) : Result Value :=
  match v with
  | .text s => .ok ((Value.characters s).getLastD .undefined)
  | _ =>
    match v.sequence? with
    | some (_, items) => .ok (items.getLastD .undefined)
    | none => .error (.invalid "cannot get last item from value")

/-! ### Filters -/

/-- A filter: what it makes of a value and further arguments. -/
abbrev Filter := Value → List Value → Result Value

namespace Filter

/-- A filter on the text of a value. -/
def onText (f : List Char → List Char) : Filter := fun v args => do
  let cs ← shownText v
  atMost 0 args
  pure (textValue (f cs))

/-- A filter without further arguments. -/
def unary (f : Value → Result Value) : Filter := fun v args => do
  atMost 0 args
  f v

/-- Number of characters, items or entries. -/
def length : Filter := unary fun v =>
  match v.length? with
  | some n => .ok (.int n)
  | none => .error (.invalid ("cannot calculate length of value of type " ++ v.kind.text))

/-- The items with a separator between them. -/
def join : Filter := fun v args => do
  let separator ← optionalText args 0
  atMost 1 args
  if v.isUndefined || v matches .none then pure (.text "")
  else
    let items ← v.items.mapError fun p =>
      (Problem.invalid ("cannot join value of type " ++ v.kind.text)).because p
    pure (textValue (joinTexts (separator.getD []) items))

/-- The text with another one for each occurrence of a part. -/
def replace : Filter := fun v args => do
  let cs ← shownText v
  let part ← (required args 0).bind shownText
  let image ← (required args 1).bind shownText
  atMost 2 args
  pure (textValue (replaceText part image cs))

/-- A value in place of one that is undefined or, if the second argument says so, not true. -/
def default : Filter := fun v values => do
  let args := Arguments.ofValues values
  let strict ← match optional args.positional 1 with
    | none => args.flag "boolean"
    | some given => truth given
  atMost 2 args.positional
  args.onlyNamed ["default_value", "boolean"]
  let fallback := (args.positional[0]? <|> args.named? "default_value").getD (.text "")
  pure (if v.isUndefined || (strict && !v.isTrue) then fallback else v)

/-- Without blanks at its ends, or without some characters. -/
def trim : Filter := fun v args => do
  let cs ← shownText v
  let drop ← optionalText args 0
  atMost 1 args
  pure (textValue (match drop with
    | none => Text.trim cs
    | some drop => dropEndWhile drop.contains (cs.dropWhile drop.contains)))

/-- The pieces of a text.  Their number is not known before they are handed out. -/
def split : Filter := fun v args => do
  let cs := (← requiredText [v] 0).toList
  let separator ← (optional args 0).mapM fun given => requiredText [given] 0
  let limit ← (optional args 1).mapM (wholeArgument "i64")
  atMost 2 args
  let limit := limit.bind fun n => if 0 ≤ n then some n.toNat else none
  let pieces := match separator with
    | some "" => splitCharacters (limit.getD (cs.length + 1)) cs
    | some separator => splitText separator.toList (limit.getD cs.length) cs
    | none =>
      match limit with
      | some n => splitBlanks n cs
      | none => fields cs
  pure (.stream false (pieces.map textValue))

/-- The entries of a map, as lists of a key and a value. -/
def items : Filter := unary fun v =>
  match v.entries? with
  | some entries => .ok (.stream true (entries.map fun (k, v) => .list [k, v]))
  | none => .error (.invalid "cannot convert value into pairs")

/-- The items in order. -/
def sort : Filter := fun v values => do
  let args := Arguments.ofValues values
  args.noPositional
  let items ← listItems v
  let caseSensitive ← args.flag "case_sensitive"
  let order := match ← args.namedText "attribute" with
    | some attributes => compareAttributes caseSensitive attributes
    | none => compareKeys caseSensitive
  let backwards ← args.flag "reverse"
  args.onlyNamed ["case_sensitive", "attribute", "reverse"]
  pure (.list (sortItems (fun v w => if backwards then (order v w).swap else order v w) items))

/-- The items without repetition. -/
def unique : Filter := fun v values => do
  let args := Arguments.ofValues values
  args.noPositional
  let path ← args.namedText "attribute"
  let caseSensitive ← args.flag "case_sensitive"
  args.onlyNamed ["case_sensitive", "attribute"]
  let items ← v.items
  let key (v : Value) : Value :=
    let v := match path with
      | some path => (attributeAt path v).toOption.getD .undefined
      | none => v
    match v with
    | .text s => if caseSensitive then v else textValue (toLower s.toList)
    | _ => v
  pure (.list (distinctItems key [] items))

/-- A text as JSON over several lines. -/
def json (v : Value) : Result Value :=
  match v.toJson with
  | .ok j => .ok (.text j.pretty)
  | .error cause => .error ((Problem.invalid "value is not JSON serializable").becauseText cause)

/-- A filter on a text that is none of its displays. -/
def onName (f : String → String) : Filter := fun v args => do
  let s ← requiredText [v] 0
  atMost 0 args
  pure (.text (f s))

/-- The filters by name, except the one that applies others. -/
def basic? : String → Option Filter
  | "lower" => some (onText toLower)
  | "upper" => some (onText toUpper)
  | "title" => some (onText (titleCase true))
  | "capitalize" => some (onText sentenceCase)
  | "length" => some length
  | "count" => some length
  | "join" => some join
  | "replace" => some replace
  | "default" => some default
  | "d" => some default
  | "first" => some (unary firstItem)
  | "last" => some (unary lastItem)
  | "reverse" => some (unary reversed)
  | "sort" => some sort
  | "unique" => some unique
  | "trim" => some trim
  | "items" => some items
  | "int" => some (unary toWhole)
  | "float" => some (unary toDouble)
  | "string" => some (onText id)
  | "safe" => some (onText id)
  | "list" => some (unary fun v => (listItems v).map .list)
  | "split" => some split
  | "camel_case" => some (onName Naming.camel)
  | "pascal_case" => some (onName Naming.pascal)
  | "snake_case" => some (onName Naming.snake)
  | "kebab_case" => some (onName Naming.kebab)
  | "pluralize" => some (onName Naming.plural)
  | "to_json" => some (unary json)
  | _ => none

/-- What stands under an attribute of each item, or a default. -/
def mapAttribute (place fallback : Value) (items : List Value) : Result Value :=
  (items.mapM fun item => show Result Value from
    match attributeOf place item with
    | .ok .undefined => .ok fallback
    | .ok v => .ok v
    | .error p => if fallback.isUndefined then .error p else .ok fallback).map .list

/-- An attribute of each item, or what a filter makes of each item.  The filter may be this one
again; each time there is one argument less, which `fuel` counts. -/
def mapWith : Nat → Filter
  | 0, _, _ => .error (.plain .unknownFilter)
  | fuel + 1, v, values => do
    let args := Arguments.ofValues values
    match args.named? "attribute" with
    | some place =>
      args.noPositional
      let items ← v.items
      let fallback := (Value.lookup (.text "default") args.named).getD .undefined
      let result ← mapAttribute place fallback items
      args.onlyNamed ["attribute", "default"]
      pure result
    | none =>
      match args.positional with
      | [] => throw (.invalid "filter name is required")
      | .text name :: rest =>
        match if name = "map" then some (mapWith fuel) else basic? name with
        | none => throw (.plain .unknownFilter)
        | some f => pure (.list (← (← v.items).mapM fun item => f item rest))
      | _ :: _ => throw (.invalid "filter name must be a string")

/-- An attribute of each item, or what a filter makes of each item. -/
def map : Filter := fun v values => mapWith (values.length + 1) v values

/-- The filters by name. -/
def ofName? (name : String) : Option Filter :=
  if name = "map" then some map else basic? name

end Filter

/-! ### Tests -/

/-- The tests by name. -/
def testOf? : String → Option (Value → Bool)
  | "defined" => some fun v => !v.isUndefined
  | "undefined" => some Value.isUndefined
  | "none" => some fun v => v.kind == .none
  | "boolean" => some fun v => v.kind == .bool
  | "number" => some fun v => v.kind == .number
  | "string" => some fun v => v.kind == .string
  | "sequence" => some fun v => v.kind == .sequence
  | "mapping" => some fun v => v.kind == .map
  | "iterable" => some fun v => v.items.toBool
  | "odd" => some fun v => v.int?.any (· % 2 != 0)
  | "even" => some fun v => v.int?.any (· % 2 == 0)
  | _ => none

/-! ### Functions -/

/-- The whole numbers from `first` on in steps. -/
def rangeItems (first step : Int) : Nat → List Value
  | 0 => []
  | n + 1 => .int first :: rangeItems (first + step) step n

/-- Number of the steps from `low` up to before `high`. -/
def rangeLength (low high : Int) (step : Nat) : Nat := ((high - low).toNat + step - 1) / step

/-- A range of whole numbers; with a negative step, it goes down. -/
def rangeOf (args : List Value) : Result Value := do
  let first ← (required args 0).bind (wholeArgument "isize")
  let second ← (optional args 1).mapM (wholeArgument "isize")
  let step ← (optional args 2).mapM (wholeArgument "isize")
  atMost 3 args
  let step := step.getD 1
  let (low, high) := match second with
    | some high => (first, high)
    | none => (0, first)
  if step = 0 then throw (.invalid "cannot create range with step of 0")
  let length :=
    if 0 < step then rangeLength low high step.toNat else rangeLength high low step.natAbs
  if 100000 < length then throw (.invalid "range has too many elements")
  pure (.stream true (rangeItems low step length))

namespace Helper

/-- A function on a text. -/
def onName (f : String → String) (args : List Value) : Result Value := do
  let s ← requiredText args 0
  atMost 1 args
  pure (.text (f s))

/-- Calls the function. -/
def call : Helper → List Value → Result Value
  | .camelCase, args => onName Naming.camel args
  | .pascalCase, args => onName Naming.pascal args
  | .snakeCase, args => onName Naming.snake args
  | .kebabCase, args => onName Naming.kebab args
  | .pluralize, args => onName Naming.plural args
  | .toJson, args => do
    let v ← required args 0
    atMost 1 args
    Filter.json v
  | .range, args => rangeOf args

end Helper

end ServiceScaffold.Template
