import ServiceScaffold.Keyed
import ServiceScaffold.Template.Grammar.Expressions

/-!
# Grammar of statements

A template is a sequence of text, outputs and statements.  `Script.parse` reads a whole template.
-/

namespace ServiceScaffold.Template

namespace Reader

/-! ### Targets of assignments -/

/-- The names that cannot be assigned to. -/
def reservedNames : List String :=
  ["true", "True", "false", "False", "none", "None", "loop", "self"]

/-- A name that is assigned to. -/
def assignedName : Reader String := do
  let id ← expectName
  if reservedNames.contains id then malformed ("cannot assign to reserved variable name " ++ id)
  pure id

/-- The token ends a list of targets. -/
def endsTargets (t : Token) : Bool :=
  t == .mark ")" || t == .outputEnd || t == .blockEnd || t == .name "in"

/-- The state of reading targets. -/
structure Targets where
  items : List Target
  /-- There was a comma. -/
  several : Bool
  closed : Bool

/-- A name, or a member of one. -/
def assignedPlace : Reader Target := do
  let id ← assignedName
  let line ← lastLine
  extendAll (fun place => do
    if ← acceptMark "." then
      let part ← expectName
      let here ← lastLine
      let e := match place with
        | .name id => Expr.name line id
        | .member _ line e id => .member line e id
        | .list line _ => .list line []
      pure (some (.member here line e part))
    else pure none) (.name id)

/-- Names and lists of names, where `single` reads one name. -/
def target (single : Reader Target) : Nat → Reader Target
  | 0 => tooDeep
  | fuel + 1 => do
    let line ← nextLine
    let read ← extendAll (fun (read : Targets) => do
      if read.closed then pure none
      else
        if !read.items.isEmpty then expectMark ","
        if ← nextIs endsTargets then pure (some { read with closed := true })
        else
          let item ←
            if ← acceptMark "(" then do
              let inner ← target single fuel
              expectMark ")"
              pure inner
            else single
          let comma ← nextIs fun t => t == .mark ","
          pure (some ⟨item :: read.items, read.several || comma, !comma⟩)) ⟨[], false, false⟩
    match read.items, read.several with
    | [item], false => pure item
    | items, _ => pure (.list line items.reverse)

/-- Names and lists of names of any depth. -/
def anyTarget : Reader Target := do target (Target.name <$> assignedName) ((← left) + 1)

/-- Names, members of names, and lists of them, of any depth. -/
def anyPlace : Reader Target := do target assignedPlace ((← left) + 1)

/-! ### Statements -/

/-- What statements are made of, as far as they may still be nested. -/
structure Parts where
  /-- An expression. -/
  expression : Reader Expr
  /-- An expression that is no choice. -/
  plain : Reader Expr
  /-- A statement inside a block. -/
  statement : Reader Stmt

/-- An expression with the lines at which its operations report problems. -/
def settled (e : Expr) : Expr := e.placed.1

/-- Statements up to a block that starts with one of the words, of which only the start is taken. -/
def statementsUntil (parts : Parts) (words : List String) : Reader (List Stmt) := do
  let (statements, _) ← extendAll (fun (done, closed) => do
    if closed then pure none
    else
      match ← next with
      | some (.data s) => pure (some (.data s :: done, false))
      | some .outputStart =>
        let e ← parts.expression
        expect .outputEnd "end of variable block"
        pure (some (.output (settled e) :: done, false))
      | some .blockStart =>
        match ← peek with
        | none => malformed "unexpected end of input, expected keyword"
        | some token =>
          if words.any fun word => token = .name word then pure (some (done, true))
          else
            let statement ← parts.statement
            expectBlockEnd
            pure (some (statement :: done, false))
      | _ => pure none) (([] : List Stmt), false)
  pure statements.reverse

/-- Statements up to the block of a word, which is taken. -/
def body (parts : Parts) (word : String) : Reader (List Stmt) := do
  let statements ← statementsUntil parts [word]
  let _ ← next
  pure statements

/-- A condition and what depends on it, after the word that starts it. -/
def branches (parts : Parts) : Nat → Reader Stmt
  | 0 => tooDeep
  | fuel + 1 => do
    let condition := settled (← parts.plain)
    expectBlockEnd
    let yes ← statementsUntil parts ["endif", "else", "elif"]
    match ← next with
    | some (.name "else") =>
      expectBlockEnd
      pure (.branch condition yes (← body parts "endif"))
    | some (.name "elif") => do pure (.branch condition yes [← branches parts fuel])
    | _ => pure (.branch condition yes [])

/-- A loop over the items of a value. -/
def loop (parts : Parts) : Reader Stmt := do
  let target ← anyTarget
  expect (.name "in") "in"
  let (sequence, line) := (← parts.plain).placed
  let only ← if ← acceptWord "if" then (some ∘ settled) <$> parts.expression else pure none
  let recursive ← acceptWord "recursive"
  expectBlockEnd
  let inner ← statementsUntil parts ["endfor", "else"]
  let otherwise ←
    if ← acceptWord "else" then do
      expectBlockEnd
      statementsUntil parts ["endfor"]
    else pure []
  let _ ← next
  pure (.loop line ⟨target, recursive, inner, otherwise⟩ sequence only)

/-- Names that hold within a block. -/
def bindings (parts : Parts) : Reader Stmt := do
  let assignments ← extendAll (fun done => do
    if ← nextIs fun t => t == .blockEnd then pure none
    else
      if !done.isEmpty then expect (.mark ",") "comma"
      let target ←
        if ← acceptMark "(" then do
          let inner ← anyTarget
          expectMark ")"
          pure inner
        else Target.name <$> assignedName
      expect (.mark "=") "assignment operator"
      pure (some ((target, settled (← parts.expression)) :: done))) []
  expectBlockEnd
  pure (.bindings assignments.reverse (← body parts "endwith"))

/-- Filters with bars between them, applied to the text of a block. -/
def filterChain (parts : Parts) : Reader Expr := do
  let chain ← extendAll (fun (chain : Option Expr) => do
    if ← nextIs fun t => t == .blockEnd then pure none
    else
      if chain.isSome then expectMark "|"
      let (name, line) ← dottedName
      let args ← optionalArguments parts.expression parts.plain
      pure (some (some (.filter line name (chain.getD (.captured line)) args)))) none
  match chain with
  | some e => pure e
  | none => malformed "expected a filter"

/-- The value of an assignment.  Several values with commas between them or one with a comma after
it are a list. -/
def assignedValue (parts : Parts) : Reader Expr := do
  let line ← nextLine
  let first ← parts.expression
  if ← nextIs fun t => t == .mark "," then
    let items ← extendAll (fun items => do
      if ← acceptMark "," then
        if ← nextIs fun t => t == .blockEnd then pure none
        else pure (some ((← parts.expression) :: items))
      else pure none) [first]
    pure (.list line items.reverse)
  else pure first

/-- An assignment of a value or of the text of a block. -/
def assignment (parts : Parts) : Reader Stmt := do
  let target ← anyPlace
  if ← nextIs fun t => t == .blockEnd || t == .mark "|" then
    let filter ← if ← acceptMark "|" then (some ∘ settled) <$> filterChain parts else pure none
    expectBlockEnd
    pure (.capture target filter (← body parts "endset"))
  else
    expect (.mark "=") "assignment operator"
    pure (.assign target (settled (← assignedValue parts)))

/-- The parameters of a function and the values of the last of them. -/
def parameters (parts : Parts) : Reader (List String × List Expr) := do
  expectMark "("
  let (names, defaults, _) ← extendAll (fun (names, defaults, closed) => do
    if closed then pure none
    else if ← acceptMark ")" then pure (some (names, defaults, true))
    else
      if !names.isEmpty then expectMark ","
      if !names.isEmpty && (← acceptMark ")") then pure (some (names, defaults, true))
      else
        let name ← assignedName
        if ← acceptMark "=" then
          pure (some (name :: names, settled (← parts.expression) :: defaults, false))
        else
          if !defaults.isEmpty then expectMark "="
          pure (some (name :: names, defaults, false)))
    (([] : List String), ([] : List Expr), false)
  pure (names.reverse, defaults.reverse)

/-- A function.  No blocks stand in it. -/
def function (parts : Parts) : Reader Stmt := do
  let name ← expectName
  let (names, defaults) ← parameters parts
  expectBlockEnd
  let outer := (← get).inFunction
  modify ({ · with inFunction := true })
  let statements ← statementsUntil parts ["endmacro"]
  modify ({ · with inFunction := outer })
  let _ ← next
  pure (.function ⟨name, names, defaults⟩ statements)

/-- A block with a name, which may stand again at its end. -/
def block (parts : Parts) : Reader Stmt := do
  if (← get).inFunction then malformed "block tags in macros are not allowed"
  let name ← expectName
  if Keyed.has name (← get).blocks then malformed ("block '" ++ name ++ "' defined twice")
  let register (statements : List Stmt) : Reader Unit :=
    modify fun input => { input with blocks := Keyed.put name statements input.blocks }
  register []
  let _ ← acceptWord "scoped"
  expectBlockEnd
  let statements ← body parts "endblock"
  register statements
  match ← peek with
  | some (.name again) =>
    if again != name then
      malformed ("mismatching name on block. Got `" ++ again ++ "`, expected `" ++ name ++ "`")
    let _ ← next
    pure (.block name statements)
  | _ => pure (.block name statements)

/-- The token starts words about the names that another template sees. -/
def startsContext (t : Token) : Bool := t == .name "with" || t == .name "without"

/-- Words about the names that another template sees, which change nothing. -/
def contextWords : Reader Unit := do
  if ← nextIs startsContext then
    let _ ← next
    expect (.name "context") "context"

/-- Another template that is taken in. -/
def insertion (parts : Parts) (line : Nat) : Reader Stmt := do
  let name := settled (← parts.expression)
  contextWords
  let optional ← acceptWord "ignore"
  if optional then
    expect (.name "missing") "missing keyword"
    contextWords
  pure (.insert line name optional)

/-- Another template whose names are taken over under one name. -/
def wholeImport (parts : Parts) (line : Nat) : Reader Stmt := do
  let name := settled (← parts.expression)
  expect (.name "as") "as"
  let _ ← parts.expression
  contextWords
  pure (.borrow line name)

/-- Another template of which some names are taken over. -/
def partialImport (parts : Parts) (line : Nat) : Reader Stmt := do
  let name := settled (← parts.expression)
  expect (.name "import") "import"
  let ends (t : Token) : Bool := t == .blockEnd || startsContext t
  let _ ← extendAll (fun first => do
    if ← nextIs ends then pure none
    else
      if !first then expectMark ","
      if ← nextIs ends then pure none
      else
        let _ ← assignedName
        if ← acceptWord "as" then
          let _ ← assignedName
          pure (some false)
        else pure (some false)) true
  contextWords
  pure (.borrow line name)

/-- A statement, from the word that starts it. -/
def statementOf (parts : Parts) : Reader Stmt := do
  let found ← next
  let line ← lastLine
  match found with
  | none => unexpected none "block keyword"
  | some (.name "for") => loop parts
  | some (.name "if") => do branches parts ((← left) + 1)
  | some (.name "with") => bindings parts
  | some (.name "set") => assignment parts
  | some (.name "block") => block parts
  | some (.name "extends") => do pure (.inherit line (settled (← parts.expression)))
  | some (.name "include") => insertion parts line
  | some (.name "import") => wholeImport parts line
  | some (.name "from") => partialImport parts line
  | some (.name "macro") => function parts
  | some (.name word) => malformed ("unknown statement " ++ word)
  | some token => malformed ("unknown " ++ token.describe ++ ", expected statement")

/-- A statement with at most `n` levels. -/
def statement : Nat → Reader Stmt
  | 0 => tooDeep
  | n + 1 => fun input => statementOf ⟨expression n, plain n, statement n⟩ input

end Reader

/-- The greatest number of levels of a template. -/
def maxLevels : Nat := 150

/-- The statements of a template, and its blocks by name. -/
structure Script where
  statements : List Stmt
  blocks : List (String × List Stmt)
  deriving Inhabited

/-- Reads a template. -/
def Script.parse (source : String) : Result Script :=
  let read := lexemes source
  let parts := ⟨Reader.expression maxLevels, Reader.plain maxLevels, Reader.statement maxLevels⟩
  (Reader.statementsUntil parts [] ⟨read.read, read.problem, 0, [], false⟩).map
    fun (statements, input) => ⟨statements, input.blocks⟩

end ServiceScaffold.Template
