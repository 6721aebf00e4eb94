import ServiceScaffold.Template.Grammar.Input

/-!
# Grammar of expressions

From the weakest to the strongest: a choice, `or`, `and`, `not`, comparisons, sums, joining of
texts, products, powers, signs, and then members, subscripts, calls, filters and tests.

`expression n` reads an expression that has at most `n` levels below it.
-/

namespace ServiceScaffold.Template

namespace Reader

/-- Operands with operators of one strength between them, grouped from the left. -/
def leftOf (operator : Token → Option (Nat → Expr → Expr → Expr)) (operand : Reader Expr) :
    Reader Expr := do
  let line ← nextLine
  let first ← operand
  extendAll (fun a => do
    match (← peek).bind operator with
    | some build =>
      let _ ← next
      pure (some (build line a (← operand)))
    | none => pure none) first

/-- An operator between two values, by its mark. -/
def markOperator (table : List (String × BinaryOperator)) (token : Token) :
    Option (Nat → Expr → Expr → Expr) :=
  match token with
  | .mark s => (table.lookup s).map fun op line a b => .binary line op a b
  | _ => none

/-- An operator that is written as a word. -/
def wordOperator (word : String) (build : Nat → Expr → Expr → Expr) (token : Token) :
    Option (Nat → Expr → Expr → Expr) :=
  if token = .name word then some build else none

/-! ### Primary expressions -/

/-- The value of a word. -/
def wordValue? : String → Option Value
  | "true" => some (.bool true)
  | "True" => some (.bool true)
  | "false" => some (.bool false)
  | "False" => some (.bool false)
  | "none" => some .none
  | "None" => some .none
  | _ => none

/-- A list in round brackets, or an expression in brackets. -/
def bracketed (line : Nat) (inner : Reader Expr) : Reader Expr := do
  if ← acceptMark ")" then pure (.list line [])
  else
    let first ← inner
    if ← nextIs fun t => t == .mark "," then
      let (items, _) ← extendAll (fun (items, closed) => do
        if closed then pure none
        else if ← acceptMark ")" then pure (some (items, true))
        else
          expectMark ","
          if ← acceptMark ")" then pure (some (items, true))
          else pure (some ((← inner) :: items, false))) ([first], false)
      pure (.list line items.reverse)
    else
      expectMark ")"
      pure first

/-- An entry of a map. -/
def entry (inner : Reader Expr) : Reader (Expr × Expr) := do
  let k ← inner
  expectMark ":"
  pure (k, ← inner)

/-- The texts that follow a text; they continue it. -/
def continuedText (s : String) : Reader String :=
  extendAll (fun s => do
    match ← peek with
    | some (.text more) =>
      let _ ← next
      pure (some (s ++ more))
    | _ => pure none) s

/-- A literal, a name, or an expression in brackets. -/
def primary (inner : Reader Expr) : Reader Expr := do
  let found ← next
  let line ← lastLine
  match found with
  | none => unexpected none "expression"
  | some (.name s) =>
    match wordValue? s with
    | some v => pure (.literal line v)
    | none => pure (.name line s)
  | some (.text s) => do pure (.literal line (.text (← continuedText s)))
  | some (.whole n) => pure (.literal line (.int n))
  | some (.real x) => pure (.literal line (.float x))
  | some (.mark "(") => bracketed line inner
  | some (.mark "[") => do pure (.list line (← listUntil "]" inner))
  | some (.mark "\x7b") => do pure (.map line (← listUntil "\x7d" (entry inner)))
  | some token => malformed ("unexpected " ++ token.describe)

/-- Signs before an expression. -/
def signed (operand : Reader Expr) : Reader Expr := do
  let lines ← extendAll (fun lines => do
    let line ← nextLine
    if ← acceptMark "-" then pure (some (line :: lines)) else pure none) []
  pure (lines.foldl (fun e line => .neg line e) (← operand))

/-! ### What follows an expression -/

/-- The greatest number of arguments. -/
def maxArguments : Nat := 2000

/-- An argument; `named` says that one with a name stands before it. -/
def argument (inner plain : Reader Expr) (named : Bool) : Reader Argument := do
  if ← acceptMark "**" then pure (.spreadNamed (← inner))
  else if ← acceptMark "*" then pure (.spread (← inner))
  else
    match ← inner with
    | .name line s =>
      if ← acceptMark "=" then pure (.named s (← plain))
      else if named then malformed "non-keyword arg after keyword arg"
      else pure (.positional (.name line s))
    | e => if named then malformed "non-keyword arg after keyword arg" else pure (.positional e)

/-- The arguments of a call, with their brackets.  `plain` reads an expression that is no choice. -/
def arguments (inner plain : Reader Expr) : Reader (List Argument) := do
  expectMark "("
  let (args, _) ← extendAll (fun (args, closed) => do
    if closed then pure none
    else if ← acceptMark ")" then pure (some (args, true))
    else
      if !args.isEmpty then expectMark ","
      if !args.isEmpty && (← acceptMark ")") then pure (some (args, true))
      else
        let args := (← argument inner plain (args.any Argument.isNamed)) :: args
        if maxArguments < args.length then malformed "Too many arguments in function call"
        pure (some (args, false))) (([] : List Argument), false)
  pure args.reverse

/-- A subscript or a slice, after its opening bracket. -/
def subscript (inner : Reader Expr) (line : Nat) (e : Expr) : Reader Expr := do
  let colon (token : Token) : Bool := token == .mark ":"
  let close (token : Token) : Bool := token == .mark "]"
  let start ← if ← nextIs colon then pure none else some <$> inner
  if ← acceptMark ":" then
    let stop ← if ← nextIs fun t => colon t || close t then pure none else some <$> inner
    let step ←
      if ← acceptMark ":" then
        if ← nextIs close then pure none else some <$> inner
      else pure none
    expectMark "]"
    pure (.slice line e start stop step)
  else
    expectMark "]"
    match start with
    | some key => pure (.item line e key)
    | none => malformed "empty subscript"

/-- A member by its name or its number, after the point. -/
def memberOf (line : Nat) (e : Expr) : Reader Expr := do
  match ← next with
  | some (.name id) => pure (.member line e id)
  | some (.whole n) => do pure (.item line e (.literal (← lastLine) (.int n)))
  | found => unexpected found "identifier or integer"

/-- Members, subscripts and calls after an expression that starts at `line`. -/
def postfixes (inner plain : Reader Expr) (line : Nat) (e : Expr) : Reader Expr := do
  let (e, _) ← extendAll (fun (e, line) => do
    let here ← nextLine
    if ← acceptMark "." then
      pure (some (← memberOf line e, here))
    else if ← acceptMark "[" then
      pure (some (← subscript inner line e, here))
    else if ← nextIs fun t => t == .mark "(" then
      pure (some (.call line e (← arguments inner plain), here))
    else pure none) (e, line)
  pure e

/-- Arguments in brackets, if there are any. -/
def optionalArguments (inner plain : Reader Expr) : Reader (List Argument) := do
  if ← nextIs fun t => t == .mark "(" then arguments inner plain else pure []

/-- The token can start the only argument of a test. -/
def startsTestArgument : Token → Bool
  | .name s => s != "and" && s != "or" && s != "else" && s != "is"
  | .text _ => true
  | .whole _ => true
  | .real _ => true
  | .mark s => s == "+" || s == "-" || s == "[" || s == "\x7b"
  | _ => false

/-- The name of a filter or a test, which may have several parts, and its line. -/
def dottedName : Reader (String × Nat) := do
  let first ← expectName
  let line ← lastLine
  let whole ← extendAll (fun s => do
    if ← acceptMark "." then pure (some (s ++ "." ++ (← expectName))) else pure none) first
  pure (whole, line)

/-- Filters and tests after an expression. -/
def filters (inner plain operand : Reader Expr) (e : Expr) : Reader Expr :=
  extendAll (fun e => do
    if ← acceptMark "|" then
      let (name, line) ← dottedName
      pure (some (.filter line name e (← optionalArguments inner plain)))
    else if ← acceptWord "is" then
      let negated ← acceptWord "not"
      let (name, line) ← dottedName
      let args ←
        if ← nextIs fun t => t == .mark "(" then arguments inner plain
        else if ← nextIs startsTestArgument then do
          let start ← nextLine
          pure [.positional (← postfixes inner plain start (← signed operand))]
        else pure []
      let test := Expr.test line name e args
      pure (some (if negated then .not line test else test))
    else pure none) e

/-! ### Operators -/

/-- An expression without operators between values. -/
def factor (inner plain operand : Reader Expr) : Reader Expr := do
  let line ← nextLine
  let e ← postfixes inner plain line (← signed operand)
  filters inner plain operand e

/-- Operands with arithmetic between them. -/
def sum (operand : Reader Expr) : Reader Expr :=
  leftOf (markOperator [("+", .add), ("-", .sub)]) <|
  leftOf (markOperator [("~", .concat)]) <|
  leftOf (markOperator [("*", .mul), ("/", .div), ("//", .floorDiv), ("%", .rem)]) <|
  leftOf (markOperator [("**", .pow)]) operand

/-- The comparison that a mark stands for. -/
def comparisonMarks : List (String × BinaryOperator) :=
  [("==", .equal), ("!=", .unequal), ("<", .less), ("<=", .lessEqual), (">", .greater),
    (">=", .greaterEqual)]

/-- The comparison that comes next, if there is one. -/
def comparison? : Reader (Option Comparison) := do
  match ← peek with
  | some (.mark s) =>
    match comparisonMarks.lookup s with
    | some op =>
      let _ ← next
      pure (some ⟨op, false⟩)
    | none => pure none
  | some (.name "in") =>
    let _ ← next
    pure (some ⟨.contains, false⟩)
  | some (.name "not") =>
    let _ ← next
    expect (.name "in") "in"
    pure (some ⟨.contains, true⟩)
  | _ => pure none

/-- Operands with comparisons between them. -/
def comparison (operand : Reader Expr) : Reader Expr := do
  let line ← lastLine
  let first ← operand
  let rest ← extendAll (fun rest => do
    match ← comparison? with
    | some c => do pure (some ((line, c, ← operand) :: rest))
    | none => pure none) []
  match rest with
  | [] => pure first
  | [(_, c, b)] =>
    let e := Expr.binary line c.operator first b
    pure (if c.negated then .not line e else e)
  | rest => pure (.compared line first rest.reverse)

/-- A comparison with `not` before it. -/
def negation (operand : Reader Expr) : Reader Expr := do
  let lines ← extendAll (fun lines => do
    let line ← nextLine
    if ← acceptWord "not" then pure (some (line :: lines)) else pure none) []
  pure (lines.foldl (fun e line => .not line e) (← operand))

/-- An expression that is no choice, from its factors. -/
def disjunction (operand : Reader Expr) : Reader Expr :=
  leftOf (wordOperator "or" .either) <| leftOf (wordOperator "and" .both) <|
    negation <| comparison <| sum operand

/-- What follows a choice or is none: the parts of a chain of choices, from the last on. -/
def choices (plain : Reader Expr) : Nat → Reader Expr
  | 0 => plain
  | fuel + 1 => do
    let line ← lastLine
    let first ← plain
    let (e, _) ← extendAll (fun (yes, line) => do
      if ← acceptWord "if" then
        let condition ← plain
        let no ← if ← acceptWord "else" then some <$> choices plain fuel else pure none
        pure (some (.choice line condition yes no, ← lastLine))
      else pure none) (first, line)
    pure e

/-- An expression whose parts are read by `operand` and, inside brackets, by `inner`; `plain` reads
one that is no choice. -/
def plainWith (inner operand : Reader Expr) : Nat → Reader Expr
  | 0 => tooDeep
  | fuel + 1 => fun input =>
    disjunction (factor inner (plainWith inner operand fuel) operand) input

/-- Reads an expression that is no choice and has at most `n` levels below it. -/
def plainOf (inner operand : Reader Expr) : Reader Expr := do
  plainWith inner operand ((← left) + 1)

/-- Reads an expression with at most `n` levels. -/
def expression : Nat → Reader Expr
  | 0 => tooDeep
  | 1 => do choices (plainOf tooDeep tooDeep) ((← left) + 1)
  | n + 2 => do
    choices (plainOf (expression (n + 1)) (primary (expression n))) ((← left) + 1)

/-- Reads an expression with at most `n` levels that is no choice. -/
def plain : Nat → Reader Expr
  | 0 => plainOf tooDeep tooDeep
  | n + 1 => plainOf (expression (n + 1)) (primary (expression n))

end Reader

end ServiceScaffold.Template
