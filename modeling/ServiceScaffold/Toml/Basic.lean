import ServiceScaffold.Keyed

/-!
# TOML documents

The values of a document, and how its lines make up one table (`Toml.ofLines?`): a header starts a
table or the next table of a list, and an entry puts a value below the last header.  No table is
started twice, no key is given twice, and a table that is written as a value stays as it is.
-/

namespace ServiceScaffold

/-- A value of a document. -/
inductive Toml where
  | text (s : String)
  | whole (n : Int)
  /-- A number with a fraction or an exponent, as it is written. -/
  | real (digits : String)
  | bool (b : Bool)
  /-- A date, a time or both, as it is written. -/
  | moment (digits : String)
  | array (items : List Toml)
  | table (fields : List (String × Toml))
  deriving Repr, Inhabited

namespace Toml

/-- A line of a document. -/
inductive Line where
  | header (path : List String)
  | listHeader (path : List String)
  | entry (path : List String) (value : Toml)
  deriving Repr, Inhabited

/-- How a table came to be. -/
inductive Origin where
  /-- By the header of a table below it. -/
  | implied
  | header
  /-- By a dotted key. -/
  | dotted
  deriving DecidableEq, Repr, Inhabited

/-- A table that is being made up. -/
inductive Draft where
  | value (v : Toml)
  | table (origin : Origin) (fields : List (String × Draft))
  /-- A list of tables, the last one first. -/
  | list (tables : List (List (String × Draft)))
  deriving Inhabited

/-- The fields of a table. -/
abbrev Drafts := List (String × Draft)

namespace Draft

mutual

/-- The value of a table that is complete. -/
def finish : Draft → Toml
  | .value v => v
  | .table _ fields => .table (finishFields fields)
  | .list tables => .array (finishTables tables).reverse

/-- The values of fields. -/
def finishFields : List (String × Draft) → List (String × Toml)
  | [] => []
  | (k, d) :: rest => (k, finish d) :: finishFields rest

/-- The tables of a list. -/
def finishTables : List (List (String × Draft)) → List Toml
  | [] => []
  | fields :: rest => .table (finishFields fields) :: finishTables rest

end

/-- Changes the table that a header leads to.  On the way, tables that are not there are made, and
of a list of tables the last one counts. -/
def atHeader? (change : Drafts → Option Drafts) : List String → Drafts → Option Drafts
  | [], fields => change fields
  | key :: rest, fields =>
    match Keyed.lookup key fields with
    | none => do
      pure (Keyed.put key (.table .implied (← atHeader? change rest [])) fields)
    | some (.table origin inner) => do
      pure (Keyed.put key (.table origin (← atHeader? change rest inner)) fields)
    | some (.list (last :: others)) => do
      pure (Keyed.put key (.list ((← atHeader? change rest last) :: others)) fields)
    | some _ => none

/-- Puts a value under a dotted key.  Tables with a header of their own take no dotted keys. -/
def putDotted? (v : Toml) : List String → Drafts → Option Drafts
  | [], _ => none
  | [key], fields =>
    match Keyed.lookup key fields with
    | none => some (Keyed.put key (.value v) fields)
    | some _ => none
  | key :: rest, fields =>
    match Keyed.lookup key fields with
    | none => do pure (Keyed.put key (.table .dotted (← putDotted? v rest [])) fields)
    | some (.table origin inner) =>
      if origin = .header then none
      else do pure (Keyed.put key (.table origin (← putDotted? v rest inner)) fields)
    | some _ => none

/-- Starts a table. -/
def startTable? (key : String) (fields : Drafts) : Option Drafts :=
  match Keyed.lookup key fields with
  | none => some (Keyed.put key (.table .header []) fields)
  | some (.table .implied inner) => some (Keyed.put key (.table .header inner) fields)
  | some _ => none

/-- Starts the next table of a list. -/
def startListed? (key : String) (fields : Drafts) : Option Drafts :=
  match Keyed.lookup key fields with
  | none => some (Keyed.put key (.list [[]]) fields)
  | some (.list tables) => some (Keyed.put key (.list ([] :: tables)) fields)
  | some _ => none

/-- Adds a line to the document; also gives the path of the table that is open then. -/
def addLine? (state : List String × Drafts) : Line → Option (List String × Drafts)
  | .header path => do
    pure (path, ← atHeader? (startTable? (path.getLast?.getD "")) path.dropLast state.2)
  | .listHeader path => do
    pure (path, ← atHeader? (startListed? (path.getLast?.getD "")) path.dropLast state.2)
  | .entry path v => do pure (state.1, ← atHeader? (putDotted? v path) state.1 state.2)

end Draft

/-- The table that the lines of a document make up. -/
def ofLines? (lines : List Line) : Option Toml := do
  let (_, fields) ← lines.foldlM Draft.addLine? ([], [])
  pure (.table (Draft.finishFields fields))

/-- The table of entries that are written as one value. -/
def ofEntries? (entries : List (List String × Toml)) : Option Toml := do
  let fields ← entries.foldlM (fun fields (path, v) => Draft.putDotted? v path fields) []
  pure (.table (Draft.finishFields fields))

/-- The value under a key. -/
def field? (key : String) : Toml → Option Toml
  | .table fields => Keyed.lookup key fields
  | _ => none

end Toml

end ServiceScaffold
