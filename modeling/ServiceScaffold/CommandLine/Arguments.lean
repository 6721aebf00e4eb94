import ServiceScaffold.FilePath.Basic
import ServiceScaffold.Keyed

/-!
# Options and their values

The options of a command are data (`OptionRule`), and one reader serves all commands
(`readOptions`).  The value of an option is attached to it or is the next argument, unless that is
an option itself.  A value that is the next argument is checked no sooner than the option after it
is understood, or at the end; so of two mistakes the one that stands later may be reported.
-/

namespace ServiceScaffold.CommandLine

open Text

/-- Why arguments are no command. -/
inductive UsageProblem where
  /-- No command is named. -/
  | noCommand
  | unknownCommand
  /-- An argument is no option, or a value that no option takes. -/
  | unknownArgument
  /-- A value is missing, empty or none of those that an option takes. -/
  | invalidValue
  /-- A value is attached to an option that takes none. -/
  | needlessValue
  /-- An option is given twice. -/
  | repeatedOption
  /-- A required option is not given. -/
  | missingOption
  /-- Not a mistake: help was asked for. -/
  | help
  deriving DecidableEq, Repr, Inhabited

/-- What values an option takes. -/
inductive ValueRule where
  /-- None: the option is a switch. -/
  | nothing
  | anyText
  /-- A text that is not empty. -/
  | path
  | oneOf (names : List String)
  deriving DecidableEq, Repr, Inhabited

namespace ValueRule

/-- The rule takes a value. -/
def takesValue : ValueRule → Bool
  | nothing => false
  | _ => true

/-- The rule allows a value. -/
def allows : ValueRule → String → Bool
  | nothing, _ => true
  | anyText, _ => true
  | path, value => !value.isEmpty
  | oneOf names, value => names.contains value

end ValueRule

/-- An option of a command. -/
structure OptionRule where
  /-- The name after two hyphens. -/
  long : String
  /-- The letter after one hyphen. -/
  short : Option Char := none
  value : ValueRule := .anyText
  required : Bool := false
  deriving DecidableEq, Repr, Inhabited

/-- The option that every command has. -/
def helpRule : OptionRule := { long := "help", short := some 'h', value := .nothing }

/-! ### Arguments -/

/-- The forms of an argument. -/
inductive ArgumentForm where
  /-- Two hyphens: no options follow. -/
  | endOfOptions
  /-- A name after two hyphens, with the value after an equals sign. -/
  | long (name : List Char) (attached : Option (List Char))
  /-- Letters after one hyphen. -/
  | short (letters : List Char)
  | plain
  deriving DecidableEq, Repr, Inhabited

/-- The form of an argument.  A hyphen alone is plain. -/
def ArgumentForm.of (argument : String) : ArgumentForm :=
  match argument.toList with
  | ['-', '-'] => .endOfOptions
  | '-' :: '-' :: rest =>
    match cut? ['='] rest with
    | some (name, value) => .long name (some value)
    | none => .long rest none
  | '-' :: c :: rest => .short (c :: rest)
  | _ => .plain

/-- The value that is attached to a short option. -/
def attachedTo (rest : List Char) : Option (List Char) :=
  match rest with
  | [] => none
  | '=' :: value => some value
  | value => some value

/-! ### Reading -/

/-- The values of the options that were read, each under its long name. -/
abbrev Values := List (String × String)

/-- Options that were read. -/
structure Reading where
  /-- The options that were checked. -/
  values : Values := []
  /-- The last option, with the argument after it; not checked yet. -/
  pending : Option (OptionRule × Option String) := none
  deriving Inhabited

namespace Reading

/-- Takes an option with its value. -/
def take (rule : OptionRule) (value : String) (r : Reading) : Except UsageProblem Reading :=
  if (Keyed.lookup rule.long r.values).isSome then .error .repeatedOption
  else if rule.value.allows value then .ok ⟨r.values ++ [(rule.long, value)], none⟩
  else .error .invalidValue

/-- Checks the last option. -/
def settle (r : Reading) : Except UsageProblem Reading :=
  match r.pending with
  | none => .ok r
  | some (_, none) => .error .invalidValue
  | some (rule, some value) => r.take rule value

/-- Understands an option that stands alone or has an attached value. -/
def meet (rule : OptionRule) (attached : Option (List Char)) (r : Reading) :
    Except UsageProblem Reading := do
  let r ← r.settle
  if rule = helpRule then throw .help
  match attached with
  | some value => r.take rule (String.ofList value)
  | none =>
    if rule.value.takesValue then pure { r with pending := some (rule, none) }
    else r.take rule ""

/-- Understands an option with a long name. -/
def meetLong (rules : List OptionRule) (name : List Char) (attached : Option (List Char))
    (r : Reading) : Except UsageProblem Reading :=
  match rules.find? (·.long.toList == name) with
  | none => .error .unknownArgument
  | some rule =>
    if attached.isSome && !rule.value.takesValue then .error .needlessValue
    else r.meet rule attached

/-- Understands short options, of which only the last may take a value. -/
def meetShort (rules : List OptionRule) : List Char → Reading → Except UsageProblem Reading
  | [], r => .ok r
  | letter :: rest, r =>
    match rules.find? (·.short == some letter) with
    | none => .error .unknownArgument
    | some rule =>
      if rule.value.takesValue then r.meet rule (attachedTo rest)
      else
        match r.meet rule none with
        | .error e => .error e
        | .ok r => meetShort rules rest r

/-- Understands a plain argument: the value of the last option, if that has none. -/
def meetPlain (argument : String) (r : Reading) : Except UsageProblem Reading :=
  match r.pending with
  | some (rule, none) => .ok { r with pending := some (rule, some argument) }
  | _ => .error .unknownArgument

/-- Understands arguments, up to one after which no options follow. -/
def meetAll (rules : List OptionRule) : List String → Reading → Except UsageProblem Reading
  | [], r => .ok r
  | argument :: rest, r =>
    match ArgumentForm.of argument with
    | .endOfOptions => if rest.isEmpty then .ok r else .error .unknownArgument
    | .long name attached => do meetAll rules rest (← r.meetLong rules name attached)
    | .short letters => do meetAll rules rest (← r.meetShort rules letters)
    | .plain => do meetAll rules rest (← r.meetPlain argument)

end Reading

/-- Reads the options of a command. -/
def readOptions (rules : List OptionRule) (arguments : List String) :
    Except UsageProblem Values := do
  let met ← Reading.meetAll (rules ++ [helpRule]) arguments {}
  let r ← met.settle
  if rules.all fun rule => !rule.required || (Keyed.lookup rule.long r.values).isSome then
    pure r.values
  else throw .missingOption

end ServiceScaffold.CommandLine
