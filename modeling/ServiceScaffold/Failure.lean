import ServiceScaffold.Json.Basic

/-!
# Failures

What goes wrong is a `Failure`: a stable code, a message, details in the order of their keys, and
the chain of causes below it.  A `Chain` is a failure or a plain text under any number of contexts;
it is what a whole command reports.
-/

namespace ServiceScaffold

/-- The kinds of failure. -/
inductive FailureCode where
  /-- The schema text as a whole could not be read. -/
  | parse
  /-- One declaration could not be read and was skipped. -/
  | declaration
  /-- A schema could not be lowered to a service. -/
  | mapper
  /-- No file exists for a template. -/
  | templateNotFound
  /-- The file of a template could not be read. -/
  | templateLoad
  /-- A template could not be rendered, or rendered nothing. -/
  | templateRender
  /-- A rendered text could not be written. -/
  | templateWrite
  /-- A configuration could not be read or is invalid. -/
  | config
  /-- The engine could not be started. -/
  | runtime
  deriving DecidableEq, Repr, Inhabited

/-- The stable text of a code. -/
def FailureCode.text : FailureCode → String
  | .parse => "PARSE_ERROR"
  | .declaration => "DECLARATION_ERROR"
  | .mapper => "MAPPER_ERROR"
  | .templateNotFound => "TEMPLATE_NOT_FOUND"
  | .templateLoad => "TEMPLATE_LOAD_ERROR"
  | .templateRender => "TEMPLATE_RENDER_ERROR"
  | .templateWrite => "TEMPLATE_WRITE_ERROR"
  | .config => "CONFIG_ERROR"
  | .runtime => "RUNTIME_ERROR"

/-- All codes. -/
def FailureCode.all : List FailureCode :=
  [.parse, .declaration, .mapper, .templateNotFound, .templateLoad, .templateRender,
    .templateWrite, .config, .runtime]

/-- The code with a given text. -/
def FailureCode.ofText? (text : String) : Option FailureCode :=
  FailureCode.all.find? (·.text == text)

/-- What a failure says of itself, without its causes. -/
structure Report where
  code : FailureCode
  message : String
  details : List (String × Json)
  deriving Repr, Inhabited

/-- The text of a report: its code in brackets, then its message. -/
def Report.text (r : Report) : String := "[" ++ r.code.text ++ "] " ++ r.message

/-- One link of a chain of causes. -/
inductive Cause where
  | text (message : String)
  | report (report : Report)
  deriving Repr, Inhabited

/-- The text that a link shows. -/
def Cause.show : Cause → String
  | .text message => message
  | .report r => r.text

/-- A report together with the chain of causes below it, outermost first. -/
structure Failure where
  report : Report
  causes : List Cause
  deriving Repr, Inhabited

namespace Failure

/-- A failure without details and causes. -/
def new (code : FailureCode) (message : String) : Failure := ⟨⟨code, message, []⟩, []⟩

/-- The code of a failure. -/
def code (f : Failure) : FailureCode := f.report.code

/-- The message of a failure. -/
def message (f : Failure) : String := f.report.message

/-- The details of a failure. -/
def details (f : Failure) : List (String × Json) := f.report.details

/-- Sets one detail. -/
def withDetail (f : Failure) (key : String) (value : Json) : Failure :=
  { f with report := { f.report with details := Keyed.insertSorted (key, value) f.report.details } }

/-- Sets one detail that is a text. -/
def withText (f : Failure) (key : String) (value : String) : Failure :=
  f.withDetail key (.str value)

/-- Replaces the chain of causes. -/
def withCauses (f : Failure) (causes : List Cause) : Failure := { f with causes }

/-- The value of a detail. -/
def detail? (f : Failure) (key : String) : Option Json := Keyed.lookup key f.details

/-- The failure as the chain of its links. -/
def links (f : Failure) : List Cause := .report f.report :: f.causes

/-- Wraps a chain of causes; a chain that starts with a report is a failure already and stays as it
is. -/
def wrap (code : FailureCode) (message : String) : List Cause → Failure
  | .report r :: below => ⟨r, below⟩
  | causes => ⟨⟨code, message, []⟩, causes⟩

/-- The texts of the causes, outermost first. -/
def causeTexts (f : Failure) : List String := f.causes.map Cause.show

end Failure

/-- What a whole command reports: the links of its chain of causes, outermost first. -/
structure Chain where
  links : List Cause
  deriving Repr, Inhabited

namespace Chain

/-- A chain of one text. -/
def ofText (message : String) : Chain := ⟨[.text message]⟩

/-- A failure as a chain. -/
def ofFailure (f : Failure) : Chain := ⟨f.links⟩

/-- A result whose failure is reported as a chain. -/
def ofResult {α : Type} (result : Except Failure α) : Except Chain α := result.mapError ofFailure

/-- Puts a text above a chain. -/
def context (message : String) (c : Chain) : Chain := ⟨.text message :: c.links⟩

/-- The texts of a chain, outermost first. -/
def texts (c : Chain) : List String := c.links.map Cause.show

/-- The first report in a chain. -/
def report? (c : Chain) : Option Report :=
  c.links.findSome? fun
    | .report r => some r
    | .text _ => none

end Chain

end ServiceScaffold
