import ServiceScaffold.Log.Pattern
import ServiceScaffold.Number.Arithmetic

/-!
# Log filters

A filter is a list of directives, each of which sets a level for a target, for spans of a name, or
for records with some fields.  Directives for levels and targets are static, those that name a span
or the value of a field are dynamic.  Both lists are sorted with the most specific directive first,
and a directive replaces an earlier one that differs only in its level.
-/

namespace ServiceScaffold.Log

open Text

/-- How much is logged. -/
inductive Level where
  | off
  | error
  | warn
  | info
  | debug
  | trace
  deriving DecidableEq, Repr, Inhabited

namespace Level

/-- The levels, from least to most. -/
def all : List Level := [.off, .error, .warn, .info, .debug, .trace]

/-- The name of a level. -/
def text : Level → String
  | .off => "off"
  | .error => "error"
  | .warn => "warn"
  | .info => "info"
  | .debug => "debug"
  | .trace => "trace"

/-- The level that a text names, in any case, or numbers from zero. -/
def ofChars? (cs : List Char) : Option Level :=
  let number := match cs with
    | '+' :: rest => rest
    | _ => cs
  if !number.isEmpty && number.all Char.isDigit then all[Number.natOfDigits number]?
  else if cs.isEmpty then some .error
  else all.find? fun level => level.text.toList == cs.map Char.toLower

end Level

/-- The value that a field must have. -/
inductive FieldValue where
  | bool (b : Bool)
  | number (x : Binary64)
  | notANumber
  | natural (n : Nat)
  | integer (n : Int)
  /-- A text that a regular expression fits. -/
  | pattern (cs : List Char)
  deriving DecidableEq, Repr, Inhabited

namespace FieldValue

/-- The text of a value. -/
def text : FieldValue → List Char
  | .bool b => if b then "true".toList else "false".toList
  | .number x => Number.plainText x
  | .notANumber => "NaN".toList
  | .natural n => Number.digitsOf n
  | .integer n => Number.intText n
  | .pattern cs => cs

/-- The place of a kind of values in their order. -/
def rank : FieldValue → Nat
  | .bool _ => 0
  | .number _ => 1
  | .notANumber => 2
  | .natural _ => 3
  | .integer _ => 4
  | .pattern _ => 5

/-- Order of values: by kind, then by value. -/
def order : FieldValue → FieldValue → Ordering
  | .bool a, .bool b => compare a b
  | .number x, .number y => if x.same y then .eq else compare x.rank y.rank
  | .natural m, .natural n => compare m n
  | .integer m, .integer n => compare m n
  | .pattern s, .pattern t => compareOfLessAndEq s t
  | v, w => compare v.rank w.rank

/-- A whole number of 64 bits without a sign but plus. -/
def natural? (cs : List Char) : Option Nat :=
  let digits := match cs with
    | '+' :: rest => rest
    | _ => cs
  if digits.isEmpty || !digits.all Char.isDigit then none
  else if Number.natOfDigits digits < Nat.pow 2 64 then some (Number.natOfDigits digits)
  else none

/-- A negative whole number of 64 bits. -/
def negative? (cs : List Char) : Option Int :=
  match cs with
  | '-' :: digits =>
    if digits.isEmpty || !digits.all Char.isDigit then none
    else if Number.natOfDigits digits ≤ Nat.pow 2 63 then some (-Number.natOfDigits digits)
    else none
  | _ => none

/-- Reads a value: a truth value, a number, or else a pattern. -/
def ofChars? (cs : List Char) : Option FieldValue :=
  if cs = "true".toList then some (.bool true)
  else if cs = "false".toList then some (.bool false)
  else
    match natural? cs, negative? cs, Number.parseDecimal? cs with
    | some n, _, _ => some (.natural n)
    | none, some n, _ => some (.integer n)
    | none, none, some x => some (if x.isNaN then .notANumber else .number x)
    | none, none, none => if isPattern cs then some (.pattern cs) else none

end FieldValue

/-- A field that a record must have, with its value if that matters. -/
structure FieldMatch where
  name : List Char
  value : Option FieldValue
  deriving DecidableEq, Repr

/-- Order of texts. -/
def orderTexts (s t : List Char) : Ordering := compareOfLessAndEq s t

/-- Order of values that may be absent, those that are absent first. -/
def orderOptions {α : Type} (order : α → α → Ordering) : Option α → Option α → Ordering
  | none, none => .eq
  | none, some _ => .lt
  | some _, none => .gt
  | some a, some b => order a b

/-- Order of lists by their items. -/
def orderLists {α : Type} (order : α → α → Ordering) : List α → List α → Ordering
  | [], [] => .eq
  | [], _ :: _ => .lt
  | _ :: _, [] => .gt
  | a :: as, b :: bs => (order a b).then (orderLists order as bs)

/-- Order of fields: those without a value first, then by name, then by value. -/
def FieldMatch.order (a b : FieldMatch) : Ordering :=
  (compare a.value.isSome b.value.isSome).then
    ((orderTexts a.name b.name).then (orderOptions FieldValue.order a.value b.value))

/-- One directive. -/
structure Directive where
  level : Level := .trace
  target : Option (List Char) := none
  span : Option (List Char) := none
  fields : List FieldMatch := []
  deriving DecidableEq, Repr

namespace Directive

/-- The directive depends on targets and field names alone. -/
def isStatic (d : Directive) : Bool := d.span.isNone && d.fields.all (·.value.isNone)

/-- The text of a field. -/
def fieldText (f : FieldMatch) : List Char :=
  match f.value with
  | some v => f.name ++ '=' :: v.text
  | none => f.name

/-- The text of a directive. -/
def text (d : Directive) : List Char :=
  let fields := if d.fields.isEmpty then []
    else '\x7b' :: joinWith [','] (d.fields.map fieldText) ++ ['\x7d']
  let scope := if d.span.isNone && d.fields.isEmpty then []
    else '[' :: d.span.getD [] ++ fields ++ [']']
  let subject := d.target.getD [] ++ scope
  (if d.target.isNone && scope.isEmpty then [] else subject ++ ['=']) ++ d.level.text.toList

/-- Order of directives: one is greater if it is more specific.  A target counts by its length,
then a span, then the number of fields; after that the texts decide. -/
def order (a b : Directive) : Ordering :=
  let lengths := orderOptions (fun s t => compare (byteLength s) (byteLength t)) a.target b.target
  let spans := compare a.span.isSome b.span.isSome
  let fields := compare a.fields.length b.fields.length
  let texts := (orderOptions orderTexts a.target b.target).then
    ((orderOptions orderTexts a.span b.span).then
      (orderLists FieldMatch.order a.fields b.fields))
  lengths.then (spans.then (fields.then texts))

/-- Puts a directive before all lesser ones, or in the place of an equal one. -/
def insert (d : Directive) : List Directive → List Directive
  | [] => [d]
  | other :: rest =>
    match d.order other with
    | .eq => d :: rest
    | .gt => d :: other :: rest
    | .lt => other :: insert d rest

/-! ### Reading -/

/-- A field inside braces. -/
def field? (cs : List Char) : Option FieldMatch :=
  match splitOn (· == '=') cs with
  | [] => none
  | [name] => if name.isEmpty then none else some ⟨name, none⟩
  | name :: value :: _ => (FieldValue.ofChars? value).map fun v => ⟨name, some v⟩

/-- A level; an empty text stands for every level. -/
def levelOrAll? (cs : List Char) : Option Level :=
  if cs.isEmpty then some .trace else Level.ofChars? cs

/-- What follows the bracket of a span: nothing, or an equals sign and a level. -/
def afterScope? (d : Directive) : List Char → Option Directive
  | [] => some d
  | '=' :: rest => (levelOrAll? rest).map fun level => { d with level }
  | _ => none

/-- The span and the fields of a directive, after the opening bracket. -/
def scope? (d : Directive) (cs : List Char) : Option Directive :=
  let span := cs.takeWhile fun c => c != ']' && c != '\x7b'
  match cs.dropWhile fun c => c != ']' && c != '\x7b' with
  | ']' :: rest => afterScope? { d with span := some span } rest
  | '\x7b' :: rest =>
    let inner := rest.takeWhile (· != '\x7d')
    match rest.dropWhile (· != '\x7d') with
    | '\x7d' :: ']' :: rest => do
      let fields ← (splitOn (· == ',') inner).mapM field?
      afterScope? { d with span := if span.isEmpty then none else some span, fields } rest
    | _ => none
  | _ => none

/-- A character that may start a target. -/
def startsTarget (c : Char) : Bool := c == '-' || c == ':' || c == '_' || isWordChar c

/-- Reads a directive without blanks around it. -/
def parse? (cs : List Char) : Option Directive :=
  match cs with
  | [] => none
  | '[' :: rest => scope? {} rest
  | c :: _ =>
    if !startsTarget c then none
    else
      let target := cs.takeWhile fun c => c != '=' && c != '['
      match cs.dropWhile fun c => c != '=' && c != '[' with
      | '=' :: rest => (levelOrAll? rest).map fun level => { level, target := some target }
      | '[' :: rest => scope? { target := some target } rest
      | _ => match Level.ofChars? cs with
        | some level => some { level }
        | none => some { target := some cs }

end Directive

/-- The directives of a filter. -/
structure Filter where
  statics : List Directive := []
  dynamics : List Directive := []
  deriving Repr

namespace Filter

/-- The filter that sets one level for everything. -/
def ofLevel (level : Level) : Filter := { statics := [{ level }] }

/-- Adds a directive. -/
def add (f : Filter) (d : Directive) : Filter :=
  if d.isStatic then { f with statics := d.insert f.statics }
  else { f with dynamics := d.insert f.dynamics }

/-- The text of a filter. -/
def text (f : Filter) : String :=
  String.ofList (joinWith [','] ((f.statics ++ f.dynamics).map Directive.text))

end Filter

end ServiceScaffold.Log
