import ServiceScaffold.Failure
import ServiceScaffold.FilePath.Basic
import ServiceScaffold.Template.Evaluation

/-!
# Rendering

A renderer makes a text of the source of a template and data; it may also fail or give nothing,
which are two different failures (`Loaded.render`).  A library of templates gives a renderer that
shows it the data under their names, with the helpers (`Renderer.ofLibrary`).  The standard renderer
is that of a library which evaluates the template.
-/

namespace ServiceScaffold.Template

/-- A template that has been read: where it stands and its source. -/
structure Loaded where
  path : FilePath
  source : String
  deriving DecidableEq, Repr, Inhabited

/-- What a renderer makes of a template. -/
inductive Rendered where
  | text (s : String)
  /-- No output at all. -/
  | nothing
  /-- A failure: its text and the texts of its causes. -/
  | failed (message : String) (causes : List String)
  deriving DecidableEq, Repr, Inhabited

/-- Makes a text of a template, from its name, its source and data. -/
abbrev Renderer := String → String → Json → Rendered

/-- A library of templates: what it makes of the name of a template, its source, and the names that
the template sees. -/
abbrev Library := String → String → Names → Rendered

/-- Evaluates the template.  It has the filters of `Filter.ofName?`, the tests of `testOf?`, the
helpers and `range`, which is not all that the language of templates offers.  It leaves out the
filters `abs`, `attr`, `batch`, `bool`, `chain`, `dictsort`, `escape`, `format`, `groupby`, `indent`,
`lines`, `max`, `min`, `pprint`, `reject`, `rejectattr`, `round`, `select`, `selectattr`, `slice`,
`sum`, `tojson` and `zip`, the tests that compare with another value, such as `eq`, `in`, `sameas`,
`divisibleby` and `startingwith`, the functions `debug`, `dict` and `namespace`, and the blocks
`filter`, `call`, `do` and `autoescape`.  A template that uses one of these fails.  What is proved of
templates in general is therefore proved for every renderer or every library. -/
def Library.standard : Library := fun name source names =>
  match evaluate source names with
  | .ok s => .text s
  | .error p => .failed (p.text name) p.causes

namespace Renderer

/-- The renderer that shows data to a library under their names, with the helpers. -/
def ofLibrary (library : Library) : Renderer := fun name source data =>
  library name source (rootNames data)

/-- Evaluates the template. -/
def standard : Renderer := .ofLibrary .standard

end Renderer

/-- Number of characters of a source that a failure shows. -/
def previewLength : Nat := 200

/-- The keys of data, in order. -/
def dataKeys : Json → List String
  | .obj fields => (Keyed.sortedFields fields).map Prod.fst
  | _ => []

/-- The failure of rendering a template. -/
def Loaded.renderFailure (t : Loaded) (name : String) (data : Json) (reason message : String) :
    Failure :=
  ((((Failure.new .templateRender message).withText "reason" reason).withText "path"
    t.path.text).withDetail "data_keys" (Json.ofStrings (dataKeys data))).withText "preview"
    (String.ofList (t.source.toList.take previewLength)) |>.withText "template" name

/-- The text of a template that has been read. -/
def Loaded.render (renderer : Renderer) (name : String) (t : Loaded) (data : Json) :
    Except Failure String :=
  match renderer name t.source data with
  | .text s => .ok s
  | .nothing =>
    .error (t.renderFailure name data "undefined_result"
      ("template `" ++ name ++ "` produced no output"))
  | .failed message causes =>
    .error ((t.renderFailure name data "exception"
      ("template `" ++ name ++ "` failed to render: " ++ message)).withCauses
      ((message :: causes).map .text))

/-- What comes of writing data as JSON: a value, or the text of the problem. -/
abbrev Encoded := Except String Json

/-- The text of a template that has been read, for data that had to be written as JSON. -/
def Loaded.renderEncoded (renderer : Renderer) (name : String) (t : Loaded) :
    Encoded → Except Failure String
  | .ok data => t.render renderer name data
  | .error problem =>
    .error ((t.renderFailure name .null "exception" "template data is not serializable").withCauses
      [.text problem])

end ServiceScaffold.Template
