import ServiceScaffold.Toml.Basic

/-!
# Artifacts

An artifact is a file that generation makes of a template, either once or once for every resource.
A project that lists none has those of a server (`Artifact.standard`).
-/

namespace ServiceScaffold.Project

/-- A file to make. -/
structure Artifact where
  /-- The name of its template. -/
  template : String
  /-- The path of the file below the output directory, itself a template. -/
  output : String
  /-- One such file is made for every resource. -/
  perResource : Bool
  deriving DecidableEq, Repr, Inhabited

namespace Artifact

/-- The artifacts of a server. -/
def standard : List Artifact :=
  ["package.json", "tsconfig.json", "README.md", "src/server.ts", "src/types.ts"].map
      (fun name => ⟨name, name, false⟩) ++
    [⟨"src/resource.ts",
      "src/resources/\x7b\x7b resource.name | kebab_case \x7d\x7d.ts", true⟩]

/-- The truth value of a field, false if there is none. -/
def flag? : Option Toml → Option Bool
  | none => some false
  | some (.bool b) => some b
  | some _ => none

/-- Reads an artifact: a table, or an array that holds the values in their order. -/
def ofToml? : Toml → Option Artifact
  | .array (.text template :: .text output :: rest) =>
    (flag? rest.head?).map fun perResource => ⟨template, output, perResource⟩
  | .table fields =>
    match Keyed.lookup "template" fields, Keyed.lookup "output" fields with
    | some (.text template), some (.text output) =>
      (flag? (Keyed.lookup "per_resource" fields)).map fun perResource =>
        ⟨template, output, perResource⟩
    | _, _ => none
  | _ => none

end Artifact

end ServiceScaffold.Project
