import ServiceScaffold.Template.Operators

/-!
# Expressions and statements of templates

The tree that a template is read into.  A node holds the line where it starts.  `Expr.placed` gives
every operation the line at which its problems are reported, which is the line of the part that was
read last before it, and replaces what is fixed by the text of a template by its value.
-/

namespace ServiceScaffold.Template

/-- A comparison of two values, or its opposite. -/
structure Comparison where
  operator : BinaryOperator
  negated : Bool
  deriving DecidableEq, Repr, Inhabited

/-- Whether a comparison holds. -/
def Comparison.test (c : Comparison) (a b : Value) : Result Bool :=
  (Value.apply c.operator a b).map fun v => v.isTrue != c.negated

mutual

/-- Expressions. -/
inductive Expr where
  | literal (line : Nat) (v : Value)
  | name (line : Nat) (id : String)
  | list (line : Nat) (items : List Expr)
  | map (line : Nat) (entries : List (Expr × Expr))
  | not (line : Nat) (e : Expr)
  | neg (line : Nat) (e : Expr)
  | binary (line : Nat) (op : BinaryOperator) (a b : Expr)
  /-- Each operand but the first is compared with the one before it; all comparisons have to hold,
  and those after one that does not are left out. -/
  | compared (line : Nat) (first : Expr) (rest : List (Nat × Comparison × Expr))
  /-- `b` where `a` is true, and else `a`. -/
  | both (line : Nat) (a b : Expr)
  /-- `a` where it is true, and else `b`. -/
  | either (line : Nat) (a b : Expr)
  | choice (line : Nat) (condition yes : Expr) (no : Option Expr)
  | member (line : Nat) (e : Expr) (name : String)
  | item (line : Nat) (e key : Expr)
  | slice (line : Nat) (e : Expr) (start stop step : Option Expr)
  | filter (line : Nat) (name : String) (e : Expr) (args : List Argument)
  | test (line : Nat) (name : String) (e : Expr) (args : List Argument)
  | call (line : Nat) (function : Expr) (args : List Argument)
  /-- The text of a block to which filters are applied. -/
  | captured (line : Nat)
  deriving Inhabited

/-- Arguments of calls. -/
inductive Argument where
  | positional (e : Expr)
  | named (name : String) (e : Expr)
  /-- Every item of a list. -/
  | spread (e : Expr)
  /-- Every entry of a map. -/
  | spreadNamed (e : Expr)
  deriving Inhabited

end

/-- What is assigned to. -/
inductive Target where
  | name (id : String)
  | list (line : Nat) (items : List Target)
  /-- A member of a value, at a line; the line of the value comes second. -/
  | member (line valueLine : Nat) (e : Expr) (name : String)
  deriving Inhabited

/-- A function that a template defines. -/
structure Signature where
  name : String
  parameters : List String
  /-- Values of the last parameters. -/
  defaults : List Expr
  deriving Inhabited

mutual

/-- What a loop does with its items. -/
inductive Rounds where
  | mk (target : Target) (recursive : Bool) (body otherwise : List Stmt)

/-- Statements. -/
inductive Stmt where
  | data (text : String)
  | output (e : Expr)
  | branch (condition : Expr) (yes no : List Stmt)
  | loop (line : Nat) (rounds : Rounds) (sequence : Expr) (only : Option Expr)
  | bindings (assignments : List (Target × Expr)) (body : List Stmt)
  | assign (target : Target) (e : Expr)
  | capture (target : Target) (filter : Option Expr) (body : List Stmt)
  | function (signature : Signature) (body : List Stmt)
  | block (name : String) (body : List Stmt)
  /-- Takes in the text of another template. -/
  | insert (line : Nat) (name : Expr) (optional : Bool)
  /-- Takes over names of another template. -/
  | borrow (line : Nat) (name : Expr)
  /-- Fills the blocks of another template. -/
  | inherit (line : Nat) (name : Expr)
  deriving Inhabited

end

instance : Inhabited Rounds := ⟨⟨.name "", false, [], []⟩⟩

/-- What the items of a loop are assigned to. -/
def Rounds.target : Rounds → Target
  | .mk target _ _ _ => target

namespace Expr

/-- The line where an expression starts. -/
def line : Expr → Nat
  | .literal line _ => line
  | .name line _ => line
  | .list line _ => line
  | .map line _ => line
  | .not line _ => line
  | .neg line _ => line
  | .binary line _ _ _ => line
  | .compared line _ _ => line
  | .both line _ _ => line
  | .either line _ _ => line
  | .choice line _ _ _ => line
  | .member line _ _ => line
  | .item line _ _ => line
  | .slice line _ _ _ _ => line
  | .filter line _ _ _ => line
  | .test line _ _ _ => line
  | .call line _ _ => line
  | .captured line => line

/-! ### Fixed values -/

/-- The value of a literal. -/
def literal? : Expr → Option Value
  | .literal _ v => some v
  | _ => none

/-- The entry of two literals. -/
def literalEntry? : Expr × Expr → Option (Value × Value)
  | (.literal _ k, .literal _ v) => some (k, v)
  | _ => none

/-- The value of comparisons whose operands are literals. -/
def comparedLiterals? (a : Value) : List (Nat × Comparison × Expr) → Option Bool
  | [] => some true
  | (_, c, .literal _ b) :: rest =>
    (c.test a b).toOption.bind fun holds =>
      (comparedLiterals? b rest).map fun others => holds && others
  | _ => none

/-- The value that is fixed by the text of an expression: of literals, of lists and maps of
literals, and of operations on such values that have a result.  Of two values that are not both
true, `both` then gives that it is false. -/
def fixed? : Expr → Option Value
  | .literal _ v => some v
  | .list _ items => (items.mapM literal?).map .list
  | .map _ entries => (entries.mapM literalEntry?).map fun entries =>
      .map (entries.foldl (fun done (k, v) => Value.put k v done) [])
  | .not _ e => (fixed? e).map fun v => .bool !v.isTrue
  | .neg _ e => (fixed? e).bind fun v => v.neg.toOption
  | .binary _ op a b =>
    (fixed? a).bind fun v => (fixed? b).bind fun w => (Value.apply op v w).toOption
  | .compared _ first rest =>
    (fixed? first).bind fun v => (comparedLiterals? v rest).map .bool
  | .both _ a b =>
    (fixed? a).bind fun v => (fixed? b).map fun w =>
      if v.isTrue && w.isTrue then w else .bool false
  | .either _ a b =>
    (fixed? a).bind fun v => (fixed? b).map fun w => if v.isTrue then v else w
  | _ => none

end Expr

/-! ### Lines of operations -/

/-- The argument has a name. -/
def Argument.isNamed : Argument → Bool
  | .named _ _ => true
  | .spreadNamed _ => true
  | _ => false

/-- The argument has a name and its value, if it has a name, is a literal. -/
def Argument.isPlain : Argument → Bool
  | .named _ e => e.literal?.isSome
  | .spreadNamed _ => false
  | _ => true

namespace Expr

/-- The arguments of a call with those that have names at the end, and the line after them, which is
not that of the names if all of their values are literals. -/
def ordered (args : List Argument) (positional named : List Argument × Nat) :
    List Argument × Nat :=
  (positional.1 ++ named.1, if args.all Argument.isPlain then positional.2 else named.2)

mutual

/-- The expression with the lines at which its operations report problems, and the line of its last
part. -/
def placed (e : Expr) : Expr × Nat :=
  match fixed? e with
  | some v => (.literal e.line v, e.line)
  | none =>
    match e with
    | .literal line v => (.literal line v, line)
    | .name line id => (.name line id, line)
    | .list line items =>
      let (items, last) := placedItems line items
      (.list last items, last)
    | .map line entries =>
      let (entries, last) := placedEntries line entries
      (.map last entries, last)
    | .not _ e =>
      let (e, last) := placed e
      (.not last e, last)
    | .neg line e =>
      let (e, last) := placed e
      (.neg line e, last)
    | .binary _ op a b =>
      let (a, _) := placed a
      let (b, last) := placed b
      (.binary last op a b, last)
    | .compared line first rest =>
      let (first, _) := placed first
      let (rest, last) := placedComparisons line rest
      (.compared last first rest, last)
    | .both _ a b =>
      let (a, _) := placed a
      let (b, last) := placed b
      (.both last a b, last)
    | .either _ a b =>
      let (a, _) := placed a
      let (b, last) := placed b
      (.either last a b, last)
    | .choice _ condition yes no =>
      let (condition, _) := placed condition
      let (yes, last) := placed yes
      let (no, last) := placedOption last no
      (.choice last condition yes no, last)
    | .member _ e id =>
      let (e, last) := placed e
      (.member last e id, last)
    | .item _ e key =>
      let (e, _) := placed e
      let (key, last) := placed key
      (.item last e key, last)
    | .slice _ e start stop step =>
      let (e, last) := placed e
      let (start, last) := placedOption last start
      let (stop, last) := placedOption last stop
      let (step, last) := placedOption last step
      (.slice last e start stop step, last)
    | .filter line id (.captured _) args =>
      let (positional, before) := placedPositional line args
      let (named, after) := placedNamed before args
      let (args, last) := ordered args (positional, before) (named, after)
      (.filter last id (.captured line) args, last)
    | .filter _ id e args =>
      let (e, last) := placed e
      let (positional, before) := placedPositional last args
      let (named, after) := placedNamed before args
      let (args, last) := ordered args (positional, before) (named, after)
      (.filter last id e args, last)
    | .test _ id e args =>
      let (e, last) := placed e
      let (positional, before) := placedPositional last args
      let (named, after) := placedNamed before args
      let (args, last) := ordered args (positional, before) (named, after)
      (.test last id e args, last)
    | .call line (.name _ id) args =>
      let (positional, before) := placedPositional line args
      let (named, after) := placedNamed before args
      let (args, last) := ordered args (positional, before) (named, after)
      (.call last (.name line id) args, last)
    | .call line (.member _ (.name _ "self") id) args =>
      (.call line (.member line (.name line "self") id) args, line)
    | .call _ (.member _ e id) args =>
      let (e, last) := placed e
      let (positional, before) := placedPositional last args
      let (named, after) := placedNamed before args
      let (args, last) := ordered args (positional, before) (named, after)
      (.call last (.member last e id) args, last)
    | .call _ f args =>
      let (f, last) := placed f
      let (positional, before) := placedPositional last args
      let (named, after) := placedNamed before args
      let (args, last) := ordered args (positional, before) (named, after)
      (.call last f args, last)
    | .captured line => (.captured line, line)

/-- As `placed`, for an expression that may be missing; `before` is the line of what stands before
it. -/
def placedOption (before : Nat) : Option Expr → Option Expr × Nat
  | none => (none, before)
  | some e =>
    let (e, last) := placed e
    (some e, last)

/-- As `placed`, for the items of a list. -/
def placedItems (before : Nat) : List Expr → List Expr × Nat
  | [] => ([], before)
  | e :: rest =>
    let (e, last) := placed e
    let (rest, last) := placedItems last rest
    (e :: rest, last)

/-- As `placed`, for the entries of a map. -/
def placedEntries (before : Nat) : List (Expr × Expr) → List (Expr × Expr) × Nat
  | [] => ([], before)
  | (k, e) :: rest =>
    let (k, _) := placed k
    let (e, last) := placed e
    let (rest, last) := placedEntries last rest
    ((k, e) :: rest, last)

/-- As `placed`, for comparisons; each holds the line of its second operand. -/
def placedComparisons (before : Nat) :
    List (Nat × Comparison × Expr) → List (Nat × Comparison × Expr) × Nat
  | [] => ([], before)
  | (_, c, e) :: rest =>
    let (e, last) := placed e
    let (rest, after) := placedComparisons last rest
    ((last, c, e) :: rest, after)

/-- As `placed`, for the arguments by position among some arguments. -/
def placedPositional (before : Nat) : List Argument → List Argument × Nat
  | [] => ([], before)
  | .positional e :: rest =>
    let (e, last) := placed e
    let (rest, last) := placedPositional last rest
    (.positional e :: rest, last)
  | .spread e :: rest =>
    let (e, last) := placed e
    let (rest, last) := placedPositional last rest
    (.spread e :: rest, last)
  | .named _ _ :: rest => placedPositional before rest
  | .spreadNamed _ :: rest => placedPositional before rest

/-- As `placed`, for the arguments with names among some arguments. -/
def placedNamed (before : Nat) : List Argument → List Argument × Nat
  | [] => ([], before)
  | .positional _ :: rest => placedNamed before rest
  | .spread _ :: rest => placedNamed before rest
  | .named id e :: rest =>
    let (e, last) := placed e
    let (rest, last) := placedNamed last rest
    (.named id e :: rest, last)
  | .spreadNamed e :: rest =>
    let (e, last) := placed e
    let (rest, last) := placedNamed last rest
    (.spreadNamed e :: rest, last)

end

end Expr

end ServiceScaffold.Template
