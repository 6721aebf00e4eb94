/-!
# Problems of templates

Why a template cannot be read or evaluated.  A problem has a kind, a detail, the line where it
arose, and may rest on another problem.
-/

namespace ServiceScaffold.Template

/-- The kinds of problems. -/
inductive ProblemKind where
  | malformed
  | templateNotFound
  | invalidOperation
  | tooManyArguments
  | missingArgument
  | unknownFilter
  | unknownFunction
  | unknownTest
  | unknownMethod
  | unknownBlock
  | badEscape
  | undefinedValue
  | cannotUnpack
  deriving DecidableEq, Repr, Inhabited

/-- The text of a kind. -/
def ProblemKind.text : ProblemKind → String
  | .malformed => "syntax error"
  | .templateNotFound => "template not found"
  | .invalidOperation => "invalid operation"
  | .tooManyArguments => "too many arguments"
  | .missingArgument => "missing argument"
  | .unknownFilter => "unknown filter"
  | .unknownFunction => "unknown function"
  | .unknownTest => "unknown test"
  | .unknownMethod => "unknown method"
  | .unknownBlock => "unknown block"
  | .badEscape => "bad string escape"
  | .undefinedValue => "undefined value"
  | .cannotUnpack => "cannot unpack"

/-- What is wrong with a template. -/
structure Problem where
  kind : ProblemKind
  detail : Option String
  /-- The line, once it is known. -/
  line : Option Nat
  /-- The texts of the problems that this one rests on. -/
  causes : List String
  deriving DecidableEq, Repr, Inhabited

namespace Problem

/-- A problem without a detail. -/
def plain (kind : ProblemKind) : Problem := ⟨kind, none, none, []⟩

/-- A problem with a detail. -/
def of (kind : ProblemKind) (detail : String) : Problem := ⟨kind, some detail, none, []⟩

/-- An operation that its operands do not allow. -/
def invalid (detail : String) : Problem := .of .invalidOperation detail

/-- A template that does not keep to the rules of the language. -/
def malformed (detail : String) : Problem := .of .malformed detail

/-- The kind and the detail. -/
def summary (p : Problem) : String :=
  match p.detail with
  | some detail => p.kind.text ++ ": " ++ detail
  | none => p.kind.text

/-- The text of a problem in the template `name`. -/
def text (name : String) (p : Problem) : String :=
  match p.line with
  | some line => p.summary ++ " (in " ++ name ++ ":" ++ toString line ++ ")"
  | none => p.summary

/-- Sets the line, unless it is known already. -/
def atLine (line : Nat) (p : Problem) : Problem := { p with line := p.line.getD line }

/-- Puts a problem above another one. -/
def because (p cause : Problem) : Problem := { p with causes := cause.summary :: cause.causes }

/-- Puts a problem above a cause of another kind. -/
def becauseText (cause : String) (p : Problem) : Problem := { p with causes := [cause] }

end Problem

/-- A value, or a problem in its place. -/
abbrev Result (α : Type) := Except Problem α

/-- Sets the line of a problem that has none. -/
def Result.atLine {α : Type} (line : Nat) (r : Result α) : Result α := r.mapError (·.atLine line)

end ServiceScaffold.Template
