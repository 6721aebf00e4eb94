import ServiceScaffold.Json.Printer
import ServiceScaffold.Number.Arithmetic
import ServiceScaffold.Template.Problem
import ServiceScaffold.Text.Quoted

/-!
# Values of templates

The values that expressions of templates have, their kinds, their text, their truth, and equality
and order between them.
-/

namespace ServiceScaffold.Template

open Number

/-- The functions that every template can call. -/
inductive Helper where
  | camelCase
  | pascalCase
  | snakeCase
  | kebabCase
  | pluralize
  | toJson
  | range
  deriving DecidableEq, Repr, Inhabited

/-- A value. -/
inductive Value where
  | undefined
  | none
  | bool (b : Bool)
  | int (n : Int)
  | float (x : Binary64)
  | text (s : String)
  /-- A list. -/
  | list (items : List Value)
  /-- Items that are handed out one after the other; their number is known before if they are
  `counted`. -/
  | stream (counted : Bool) (items : List Value)
  /-- Entries sorted by key. -/
  | map (entries : List (Value × Value))
  /-- The arguments of a call that have names. -/
  | named (entries : List (Value × Value))
  | helper (h : Helper)
  /-- A function that the template defines, by its number. -/
  | defined (id : Nat) (name : String) (parameters : List String)
  /-- A loop, by its number, in the round `index` of `length`, if that is known, with the items
  before and after that of the round; `depth` loops over parts of items are around it. -/
  | loop (id index : Nat) (length : Option Nat) (depth : Nat) (previous next : Value)
  deriving Inhabited, Repr

/-- The kinds of values. -/
inductive Kind where
  | undefined
  | none
  | bool
  | number
  | string
  | sequence
  | map
  | iterable
  | plain
  deriving DecidableEq, Repr, Inhabited

namespace Kind

/-- The name of a kind. -/
def text : Kind → String
  | .undefined => "undefined"
  | .none => "none"
  | .bool => "bool"
  | .number => "number"
  | .string => "string"
  | .sequence => "sequence"
  | .map => "map"
  | .iterable => "iterator"
  | .plain => "plain object"

/-- The place of a kind in the order of values. -/
def rank : Kind → Nat
  | .undefined => 0
  | .none => 1
  | .bool => 2
  | .number => 3
  | .string => 4
  | .sequence => 5
  | .map => 6
  | .iterable => 7
  | .plain => 8

end Kind

/-- The name under which a template finds a helper. -/
def Helper.name : Helper → String
  | .camelCase => "camel_case"
  | .pascalCase => "pascal_case"
  | .snakeCase => "snake_case"
  | .kebabCase => "kebab_case"
  | .pluralize => "pluralize"
  | .toJson => "to_json"
  | .range => "range"

/-- The text of a helper: its name with the place where it is defined. -/
def Helper.text : Helper → String
  | .range => "minijinja::functions::builtins::range"
  | h => "schemaforge::engine::render::" ++ h.name

namespace Value

/-- The kind of a value. -/
def kind : Value → Kind
  | .undefined => .undefined
  | .none => .none
  | .bool _ => .bool
  | .int _ => .number
  | .float _ => .number
  | .text _ => .string
  | .list _ => .sequence
  | .stream _ _ => .iterable
  | .map _ => .map
  | .named _ => .map
  | .helper _ => .plain
  | .defined _ _ _ => .map
  | .loop _ _ _ _ _ _ => .map

/-- The value is undefined. -/
def isUndefined : Value → Bool
  | .undefined => true
  | _ => false

/-- The text of a text. -/
def text? : Value → Option String
  | .text s => some s
  | _ => Option.none

/-- What a condition makes of a value. -/
def isTrue : Value → Bool
  | .undefined => false
  | .none => false
  | .bool b => b
  | .int n => n != 0
  | .float x => x.magnitude != 0
  | .text s => !s.isEmpty
  | .list items => !items.isEmpty
  | .stream counted items => !counted || !items.isEmpty
  | .map entries => !entries.isEmpty
  | .named entries => !entries.isEmpty
  | .helper _ => true
  | .defined _ _ _ => true
  | .loop _ _ _ _ _ _ => true

/-! ### Texts -/

/-- A text inside another value stands in quotes. -/
def quote (s : String) : String := String.ofList (Text.quoted ['"', '\\'] s.toList)

/-- A number with a point, unless it is infinite or missing. -/
def floatText (x : Binary64) : String :=
  if x.isNaN then "NaN" else String.ofList (pointedText x)

/-- A number inside another value: one that is small or not below `1e16` has an exponent. -/
def nestedFloatText (x : Binary64) : String :=
  if x.isNaN then "NaN"
  else if x.isFinite then String.ofList (scientificText (-4) false x)
  else String.ofList (plainText x)

mutual

/-- The text of a value inside another one. -/
def nested : Value → String
  | .undefined => "undefined"
  | .none => "None"
  | .bool b => if b then "True" else "False"
  | .int n => String.ofList (intText n)
  | .float x => nestedFloatText x
  | .text s => quote s
  | .list items => "[" ++ nestedItems true items ++ "]"
  | .stream _ items => "[" ++ nestedItems true items ++ "]"
  | .map entries => "\x7b" ++ nestedEntries true entries ++ "\x7d"
  | .named entries => "\x7b" ++ nestedEntries true entries ++ "\x7d"
  | .helper h => h.text
  | .defined _ name _ => "<macro " ++ name ++ ">"
  | .loop _ index length _ _ _ =>
    let length := match length with
      | some n => toString n
      | Option.none => "?"
    "<loop " ++ toString index ++ "/" ++ length ++ ">"

/-- The texts of items, each but the first after a comma. -/
def nestedItems (first : Bool) : List Value → String
  | [] => ""
  | v :: rest => (if first then "" else ", ") ++ nested v ++ nestedItems false rest

/-- The texts of entries, each but the first after a comma. -/
def nestedEntries (first : Bool) : List (Value × Value) → String
  | [] => ""
  | (k, v) :: rest =>
    (if first then "" else ", ") ++ nested k ++ ": " ++ nested v ++ nestedEntries false rest

end

/-- The text of a value: a text without quotes, nothing for what is undefined. -/
def display : Value → String
  | .undefined => ""
  | .text s => s
  | .float x => floatText x
  | v => nested v

/-! ### Numbers -/

/-- The whole numbers that can be calculated with. -/
def isWide (n : Int) : Bool := -Int.pow 2 127 ≤ n && n < Int.pow 2 127

/-- The whole number that a double stands for, if it has at most 64 bits; `2 ^ 63` stands for the
greatest of them. -/
def wholeNumber? (x : Binary64) : Option Int :=
  x.wholeNumber?.bind fun n =>
    if -Int.pow 2 63 ≤ n ∧ n ≤ Int.pow 2 63 then some (min n (Int.pow 2 63 - 1)) else Option.none

/-- The whole number that a value is or stands for. -/
def int? : Value → Option Int
  | .bool b => some (if b then 1 else 0)
  | .int n => if isWide n then some n else Option.none
  | .float x => wholeNumber? x
  | _ => Option.none

/-- The whole number of 64 bits that a value is or stands for. -/
def index? (v : Value) : Option Int :=
  v.int?.bind fun n => if -Int.pow 2 63 ≤ n ∧ n < Int.pow 2 63 then some n else Option.none

/-- A double stands for a whole number exactly.  It does so also for the greatest numbers of 64 and
128 bits, whose doubles are greater by one. -/
def isExact (n : Int) (x : Binary64) : Bool :=
  x.wholeNumber?.any fun m =>
    m == n || (m == n + 1 && (n == Int.pow 2 64 - 1 || n == Int.pow 2 128 - 1))

/-- The double that stands for a value; if `exactly`, none that differs from it. -/
def float? (exactly : Bool) : Value → Option Binary64
  | .bool b => some (Binary64.ofInt (if b then 1 else 0))
  | .int n =>
    let x := Binary64.ofInt n
    if exactly && !isExact n x then Option.none else some x
  | .float x => some x
  | _ => Option.none

/-- The 128 bits of a number read as a number with a sign. -/
def wrapped (n : Int) : Int := if n < Int.pow 2 127 then n else n - Int.pow 2 128

/-- Two values as numbers of one kind. -/
inductive Pair where
  | ints (a b : Int)
  | floats (a b : Binary64)
  | texts (a b : String)

/-- Two values as numbers of one kind, or as two texts.  Whole numbers have 128 bits with a sign;
where both need more than 64 bits without one, their bits are read so. -/
def pair? (exactly : Bool) (a b : Value) : Option Pair :=
  match a, b with
  | .text s, .text t => some (.texts s t)
  | .float x, .float y => some (.floats x y)
  | .float x, _ => (float? exactly b).map (.floats x)
  | _, .float y => (float? exactly a).map (.floats · y)
  | .int m, .int n =>
    if Int.pow 2 64 ≤ m ∧ Int.pow 2 64 ≤ n then some (.ints (wrapped m) (wrapped n))
    else a.int?.bind fun m => b.int?.map fun n => .ints m n
  | _, _ => a.int?.bind fun m => b.int?.map fun n => .ints m n

/-! ### Equality and order -/

mutual

/-- Order of values: by kind, then by value. -/
def compare : Value → Value → Ordering
  | .list as, .list bs => compareItems as bs
  | .stream _ as, .stream _ bs => compareItems as bs
  | .map as, .map bs => compareEntries as bs
  | .named as, .named bs => compareEntries as bs
  | .helper f, .helper g => Ord.compare f.text g.text
  | a, b =>
    match Ord.compare a.kind.rank b.kind.rank with
    | .eq =>
      match pair? true a b with
      | some (.ints m n) => Ord.compare m n
      | some (.floats x y) => Ord.compare x.rank y.rank
      | some (.texts s t) => if s < t then .lt else if s = t then .eq else .gt
      | Option.none => .eq
    | other => other

/-- Order of lists. -/
def compareItems : List Value → List Value → Ordering
  | [], [] => .eq
  | [], _ :: _ => .lt
  | _ :: _, [] => .gt
  | a :: as, b :: bs =>
    match compare a b with
    | .eq => compareItems as bs
    | other => other

/-- Order of lists of entries. -/
def compareEntries : List (Value × Value) → List (Value × Value) → Ordering
  | [], [] => .eq
  | [], _ :: _ => .lt
  | _ :: _, [] => .gt
  | (k, v) :: as, (l, w) :: bs =>
    match compare k l with
    | .eq =>
      match compare v w with
      | .eq => compareEntries as bs
      | other => other
    | other => other

end

/-- What stands under a key. -/
def lookup (key : Value) : List (Value × Value) → Option Value
  | [] => Option.none
  | (k, v) :: rest => if compare key k == .eq then some v else lookup key rest

mutual

/-- Equality of values.  Numbers are equal if they have the same value, a truth value stands for
one or zero, and lists are equal item by item. -/
def same : Value → Value → Bool
  | .undefined, .undefined => true
  | .none, .none => true
  | .list as, .list bs => sameItems as bs
  | .list as, .stream _ bs => sameItems as bs
  | .stream _ as, .list bs => sameItems as bs
  | .stream _ as, .stream _ bs => sameItems as bs
  | .map as, .map bs => as.length == bs.length && sameEntries as bs
  | .map as, .named bs => as.length == bs.length && sameEntries as bs
  | .named as, .map bs => as.length == bs.length && sameEntries as bs
  | .named as, .named bs => as.length == bs.length && sameEntries as bs
  | .helper f, .helper g => f == g
  | .defined _ f ps, .defined _ g qs => f == g && ps == qs
  | .loop i m n d v w, .loop j k l e x y =>
    i == j || ((m, n, d) == (k, l, e) && same v x && same w y)
  | a, b =>
    match pair? true a b with
    | some (.ints m n) => m == n
    | some (.floats x y) => x.same y
    | some (.texts s t) => s == t
    | Option.none => false

/-- Equality of lists. -/
def sameItems : List Value → List Value → Bool
  | [], [] => true
  | a :: as, b :: bs => same a b && sameItems as bs
  | _, _ => false

/-- What stands under the keys of the first entries stands under them also in the others. -/
def sameEntries : List (Value × Value) → List (Value × Value) → Bool
  | [], _ => true
  | (k, v) :: rest, others => (lookup k others).any (same v) && sameEntries rest others

end

/-! ### Parts -/

/-- Puts a value under a key of sorted entries. -/
def put (key value : Value) : List (Value × Value) → List (Value × Value)
  | [] => [(key, value)]
  | (k, v) :: rest =>
    match compare key k with
    | .lt => (key, value) :: (k, v) :: rest
    | .eq => (k, value) :: rest
    | .gt => (k, v) :: put key value rest

/-- What a loop tells about itself under its names.  What depends on its length is undefined if that
is not known. -/
def loopEntries (index : Nat) (length : Option Nat) (depth : Nat) (previous next : Value) :
    List (Value × Value) :=
  let number (n : Nat) : Value := .int n
  let counted (f : Nat → Value) : Value := (length.map f).getD .undefined
  [ (.text "index0", number index),
    (.text "index", number (index + 1)),
    (.text "length", counted number),
    (.text "revindex", counted fun n => number (n - index)),
    (.text "revindex0", counted fun n => number (n - index - 1)),
    (.text "first", .bool (index == 0)),
    (.text "last", counted fun n => .bool (index + 1 == n)),
    (.text "depth", number (depth + 1)),
    (.text "depth0", number depth),
    (.text "previtem", previous),
    (.text "nextitem", next) ]

/-- What a function of the template tells about itself under its names. -/
def functionEntries (name : String) (parameters : List String) : List (Value × Value) :=
  [ (.text "name", .text name),
    (.text "arguments", .list (parameters.map .text)),
    (.text "caller", .bool false) ]

/-- The entries of a value that has keys. -/
def entries? : Value → Option (List (Value × Value))
  | .map entries => some entries
  | .named entries => some entries
  | .defined _ name parameters => some (functionEntries name parameters)
  | .loop _ index length depth previous next =>
    some (loopEntries index length depth previous next)
  | _ => Option.none

/-- The value under a name. -/
def attribute? (name : String) (v : Value) : Option Value :=
  v.entries?.bind (lookup (.text name))

/-- The item at a place, which counts from the end if it is negative. -/
def itemAt? (items : List Value) (place : Int) : Option Value :=
  if place < 0 then
    if items.length < place.natAbs then Option.none else items[items.length - place.natAbs]?
  else items[place.toNat]?

/-- The characters of a text as values. -/
def characters (s : String) : List Value := s.toList.map fun c => .text (String.singleton c)

/-- The value that a subscript picks. -/
def item? (v key : Value) : Option Value :=
  match v with
  | .list items => key.index?.bind (itemAt? items)
  | .stream counted items =>
    key.index?.bind fun place =>
      if counted || 0 ≤ place then itemAt? items place else Option.none
  | .text s => key.index?.bind (itemAt? (characters s))
  | _ => v.entries?.bind (lookup key)

/-- The items of a list, or the keys of a value that has keys. -/
def members? : Value → Option (List Value)
  | .list items => some items
  | .stream _ items => some items
  | v => v.entries?.map (·.map Prod.fst)

/-- The items of a value that has any; what is undefined or none has no items. -/
def items (v : Value) : Result (List Value) :=
  match v with
  | .undefined => .ok []
  | .none => .ok []
  | .text s => .ok (characters s)
  | _ =>
    match v.members? with
    | some items => .ok items
    | Option.none => .error (.invalid (v.kind.text ++ " is not iterable"))

/-- Number of the items, if it is known. -/
def length? : Value → Option Nat
  | .text s => some s.toList.length
  | .stream false _ => Option.none
  | v => v.members?.map List.length

/-! ### Data -/

mutual

/-- The value of data. -/
def ofJson : Json → Value
  | .null => .none
  | .bool b => .bool b
  | .int n => .int n
  | .float x => .float x
  | .str s => .text s
  | .arr items => .list (ofItems items)
  | .obj fields => .map (ofFields fields)

/-- The values of items. -/
def ofItems : List Json → List Value
  | [] => []
  | v :: rest => ofJson v :: ofItems rest

/-- The entries of fields, each key once. -/
def ofFields : List (String × Json) → List (Value × Value)
  | [] => []
  | (k, v) :: rest =>
    let entries := ofFields rest
    if (lookup (.text k) entries).isSome then entries else put (.text k) (ofJson v) entries

end

/-- The name that a key has in data, or why it has none. -/
def keyText : Value → Except String String
  | .text s => .ok s
  | .int n => .ok (String.ofList (intText n))
  | .bool b => .ok (if b then "true" else "false")
  | .float x =>
    if x.isFinite then .ok (String.ofList (scientificText (-5) true x))
    else .error "float key must be finite (got NaN or +/-inf)"
  | .helper h => .ok h.text
  | _ => .error "key must be a string"

mutual

/-- The data of a value, or why it has none. -/
def toJson : Value → Except String Json
  | .undefined => .ok .null
  | .none => .ok .null
  | .bool b => .ok (.bool b)
  | .int n => .ok (.int n)
  | .float x => .ok (.float x)
  | .text s => .ok (.str s)
  | .list items => (itemsToJson items).map .arr
  | .stream _ items => (itemsToJson items).map .arr
  | .map entries => (entriesToJson entries).map .obj
  | .named entries => (entriesToJson entries).map .obj
  | .helper h => .ok (.str h.text)
  | .defined _ name parameters => .ok (.obj
      [("name", .str name), ("arguments", .ofStrings parameters), ("caller", .bool false)])
  | .loop _ index length depth previous next => do
    let previous ← toJson previous
    let next ← toJson next
    let counted (f : Nat → Json) : Json := (length.map f).getD .null
    pure (.obj
      [("index0", .int index), ("index", .int (index + 1)), ("length", counted (.int ·)),
        ("revindex", counted fun n => .int (n - index)),
        ("revindex0", counted fun n => .int (n - index - 1)), ("first", .bool (index == 0)),
        ("last", counted fun n => .bool (index + 1 == n)), ("depth", .int (depth + 1)),
        ("depth0", .int depth), ("previtem", previous), ("nextitem", next)])

/-- The data of items. -/
def itemsToJson : List Value → Except String (List Json)
  | [] => .ok []
  | v :: rest => do
    let j ← toJson v
    pure (j :: (← itemsToJson rest))

/-- The data of entries. -/
def entriesToJson : List (Value × Value) → Except String (List (String × Json))
  | [] => .ok []
  | (k, v) :: rest => do
    let key ← keyText k
    let j ← toJson v
    pure ((key, j) :: (← entriesToJson rest))

end

end Value

end ServiceScaffold.Template
