import ServiceScaffold.Template.Grammar.Statements
import ServiceScaffold.Template.Scope

/-!
# Evaluation of templates

Expressions have values, statements add to the output.  `render` reads a template and evaluates it
for some data; the template sees nothing of them but the names in `rootNames`.
-/

namespace ServiceScaffold.Template

/-- Evaluations: they read and change the scope. -/
abbrev Eval := StateT Scope (Except Problem)

namespace Eval

/-- A result that arose at a line. -/
def lift {α : Type} (line : Nat) (r : Result α) : Eval α := fun s => (r.atLine line).map (·, s)

/-- Sets the line of a problem that has none. -/
def located {α : Type} (line : Nat) (m : Eval α) : Eval α := fun s => (m s).mapError (·.atLine line)

/-- Adds to the output. -/
def emit (text : String) : Eval Unit := modify fun s => { s with output := s.output ++ text }

/-- The problem of parts of a template that lie too deep in each other. -/
def recursionLimit : Problem := .invalid "recursion limit exceeded"

/-- Evaluates within a frame of its own. -/
def inFrame {α : Type} (frame : Frame) (m : Eval α) : Eval α := do
  if maxDepth < (← get).depth + (← get).frames.length then throw recursionLimit
  modify fun s => { s with frames := frame :: s.frames }
  let result ← m
  modify fun s => { s with frames := s.frames.tail }
  pure result

/-- The text that an evaluation adds to the output, which is left as it was. -/
def captured (m : Eval Unit) : Eval String := do
  let before := (← get).output
  modify ({ · with output := "" })
  m
  let text := (← get).output
  modify ({ · with output := before })
  pure text

end Eval

open Eval

/-! ### Calls -/

/-- What calls do that go back to an earlier part of the template. -/
structure Caller where
  /-- Calls a function that the template defines, by number, with values. -/
  function : Nat → List Value → Eval Value
  /-- Evaluates a loop, which starts at a line, for the parts of a value. -/
  again : Nat × Rounds → Value → Eval Unit
  /-- Evaluates a block. -/
  block : List Stmt → Eval Unit

/-- Calls a value. -/
def callValue (call : Caller) (v : Value) (args : List Value) : Eval Value :=
  match v with
  | .helper h => liftM (h.call args)
  | .defined id _ _ => call.function id args
  | .loop _ _ _ _ _ _ =>
    throw (.of .unknownFunction "loop cannot be called if reassigned to different variable")
  | _ =>
    if v.members?.isSome then throw (.invalid "object is not callable")
    else throw (.invalid ("value of type " ++ v.kind.text ++ " is not callable"))

/-- The arguments differ from those with which the loop of a number was last asked. -/
def hasChanged (loop : Nat) (args : List Value) : Eval Value := fun s =>
  match s.watched.find? (·.1 == loop) with
  | some (_, last) =>
    if Value.sameItems last args then .ok (.bool false, s)
    else
      let others := s.watched.filter (·.1 != loop)
      .ok (.bool true, { s with watched := (loop, args) :: others })
  | none => .ok (.bool true, { s with watched := (loop, args) :: s.watched })

/-- Calls what stands under a name of a value. -/
def callMember (call : Caller) (v : Value) (name : String) (args : List Value) : Eval Value :=
  match v with
  | .loop id index _ _ _ _ =>
    if name = "cycle" then pure (args.getD (index % args.length) .undefined)
    else if name = "changed" then hasChanged id args
    else throw (.of .unknownMethod ("loop object has no method named " ++ name))
  | _ =>
    match v.attribute? name with
    | some f => callValue call f args
    | none => throw (.of .unknownMethod (v.kind.text ++ " has no method named " ++ name))

/-- Evaluates the innermost loop for the parts of a value. -/
def callLoop (call : Caller) (args : List Value) : Eval Value := do
  match args with
  | [v] =>
    match (← get).loop with
    | some ⟨_, some loop, _⟩ => do pure (.text (← captured (call.again loop v)))
    | some _ => throw (.invalid "cannot recurse outside of recursive loop")
    | none => throw (.of .unknownFunction "loop is unknown")
  | _ => throw (.invalid "loop() takes one argument")

/-- The text of the block that a block replaces.  There is none, since there are no other
templates. -/
def callReplaced (args : List Value) : Eval Value := do
  if !args.isEmpty then throw (.invalid "super() takes no arguments")
  else if (← get).inBlock then throw (.invalid "no parent block exists")
  else throw (.invalid "cannot super outside of block")

/-- The text of a block. -/
def callBlock (call : Caller) (name : String) : Eval Value := do
  match Keyed.lookup name (← get).blocks with
  | some body => do pure (.text (← captured (call.block body)))
  | none => throw (.of .unknownBlock ("block '" ++ name ++ "' not found"))

/-- Calls what a name stands for. -/
def callName (call : Caller) (name : String) (args : List Value) : Eval Value := do
  if name = "super" then callReplaced args
  else if name = "loop" then callLoop call args
  else
    match (← get).lookup name with
    | some f => callValue call f args
    | none => throw (.of .unknownFunction (name ++ " is unknown"))

/-- Applies a filter by its name. -/
def applyFilter (name : String) (v : Value) (args : List Value) : Result Value :=
  match Filter.ofName? name with
  | some f => f v args
  | none => .error (.of .unknownFilter ("filter " ++ name ++ " is unknown"))

/-- Performs a test by its name. -/
def performTest (name : String) (v : Value) (args : List Value) : Result Value :=
  match testOf? name with
  | some f => if args.isEmpty then .ok (.bool (f v)) else .error (.plain .tooManyArguments)
  | none => .error (.of .unknownTest ("test " ++ name ++ " is unknown"))

/-! ### Expressions -/

/-- The member of a value, which is undefined if there is none; what is undefined has no members. -/
def partOf (v : Value) (part : Option Value) : Result Value :=
  match part with
  | some w => .ok w
  | none => if v.isUndefined then .error (.plain .undefinedValue) else .ok .undefined

/-- The value of an argument, and how it was given. -/
inductive Given where
  | positional (v : Value)
  | named (name : String) (v : Value)
  | spread (v : Value)
  | spreadNamed (v : Value)

namespace Given

/-- The argument has a name. -/
def isNamed : Given → Bool
  | .named _ _ => true
  | .spreadNamed _ => true
  | _ => false

/-- The arguments with names, after those of the arguments before. -/
def putEntries (entries : List (Value × Value)) : Given → Result (List (Value × Value))
  | .named name v => .ok (Value.put (.text name) v entries)
  | .spreadNamed v =>
    match v.entries? with
    | some more => .ok (more.foldl (fun done (k, v) => Value.put k v done) entries)
    | none => .error (.invalid
        ("attempted to apply keyword arguments from non map (got " ++ v.kind.text ++ ")"))
  | _ => .ok entries

/-- The arguments by position. -/
def positions : Given → Result (List Value)
  | .positional v => .ok [v]
  | .spread v => v.items
  | _ => .ok []

/-- The values with which a call is made: the arguments with names are the last one. -/
def gather (args : List Given) : Result (List Value) := do
  let entries ← args.foldlM putEntries []
  let values ← args.mapM positions
  pure (values.flatten ++ if args.any isNamed then [.named entries] else [])

end Given

mutual

/-- The value of an expression. -/
def Expr.eval (call : Caller) : Expr → Eval Value
  | .literal _ v => pure v
  | .name _ id => do pure (((← get).lookup id).getD .undefined)
  | .list _ items => do pure (.list (← evalItems call items))
  | .map _ entries => do pure (.map (← evalEntries call [] entries))
  | .not _ e => do pure (.bool (!(← e.eval call).isTrue))
  | .neg line e => do lift line (← e.eval call).neg
  | .binary line op a b => do
    let v ← a.eval call
    let w ← b.eval call
    lift line (Value.apply op v w)
  | .compared _ first rest => do
    let v ← first.eval call
    pure (.bool (← evalComparisons call v rest))
  | .both _ a b => do
    let v ← a.eval call
    if v.isTrue then b.eval call else pure v
  | .either _ a b => do
    let v ← a.eval call
    if v.isTrue then pure v else b.eval call
  | .choice _ condition yes no => do
    if (← condition.eval call).isTrue then yes.eval call else evalOption call .undefined no
  | .member line e name => do
    let v ← e.eval call
    lift line (partOf v (v.attribute? name))
  | .item line e key => do
    let v ← e.eval call
    let k ← key.eval call
    lift line (partOf v (v.item? k))
  | .slice line e start stop step => do
    let v ← e.eval call
    let first ← evalOption call .none start
    let last ← evalOption call .none stop
    let stride ← evalOption call .none step
    lift line (v.slice first last stride)
  | .filter line name e args => do
    let v ← e.eval call
    let given ← evalArguments call args
    lift line ((Given.gather given).bind (applyFilter name v))
  | .test line name e args => do
    let v ← e.eval call
    let given ← evalArguments call args
    lift line ((Given.gather given).bind (performTest name v))
  | .call line (.name _ id) args => do
    let given ← evalArguments call args
    located line do callName call id (← liftM (Given.gather given))
  | .call line (.member _ (.name _ "self") name) _ => located line (callBlock call name)
  | .call line (.member _ e name) args => do
    let v ← e.eval call
    let given ← evalArguments call args
    located line do callMember call v name (← liftM (Given.gather given))
  | .call line f args => do
    let v ← f.eval call
    let given ← evalArguments call args
    located line do callValue call v (← liftM (Given.gather given))
  | .captured _ => do pure (← get).captured

/-- The value of an expression, or a fixed one if it is missing. -/
def evalOption (call : Caller) (otherwise : Value) : Option Expr → Eval Value
  | none => pure otherwise
  | some e => e.eval call

/-- The values of several expressions. -/
def evalItems (call : Caller) : List Expr → Eval (List Value)
  | [] => pure []
  | e :: rest => do
    let v ← e.eval call
    pure (v :: (← evalItems call rest))

/-- The entries of a map after those that are `done`; of equal keys the first one is kept with the
last value. -/
def evalEntries (call : Caller) (done : List (Value × Value)) :
    List (Expr × Expr) → Eval (List (Value × Value))
  | [] => pure done
  | (k, e) :: rest => do
    let k ← k.eval call
    let v ← e.eval call
    evalEntries call (Value.put k v done) rest

/-- All comparisons hold, the first of them with `v`. -/
def evalComparisons (call : Caller) (v : Value) : List (Nat × Comparison × Expr) → Eval Bool
  | [] => pure true
  | (line, c, e) :: rest => do
    let w ← e.eval call
    if ← lift line (c.test v w) then evalComparisons call w rest else pure false

/-- The values of arguments. -/
def evalArguments (call : Caller) : List Argument → Eval (List Given)
  | [] => pure []
  | .positional e :: rest => do
    let v ← e.eval call
    pure (.positional v :: (← evalArguments call rest))
  | .named name e :: rest => do
    let v ← e.eval call
    pure (.named name v :: (← evalArguments call rest))
  | .spread e :: rest => do
    let v ← e.eval call
    pure (.spread v :: (← evalArguments call rest))
  | .spreadNamed e :: rest => do
    let v ← e.eval call
    pure (.spreadNamed v :: (← evalArguments call rest))

end

/-! ### Assignments -/

mutual

/-- Assigns a value.  Members cannot be assigned to. -/
def assignTo (call : Caller) (v : Value) : Target → Eval Unit
  | .name id => modify (·.assign id v)
  | .list line targets =>
    match v.members? with
    | none => lift line (.error (.of .cannotUnpack "value is not iterable"))
    | some values =>
      if values.length = targets.length then assignAll call values targets
      else lift line (.error (.of .cannotUnpack
        ("sequence of wrong length (expected " ++ toString targets.length ++ ", got " ++
          toString values.length ++ ")")))
  | .member line _ e _ => do
    let place ← e.eval call
    lift line (.error (.invalid ("can only assign to namespaces, not " ++ place.kind.text)))

/-- Assigns several values. -/
def assignAll (call : Caller) (values : List Value) : List Target → Eval Unit
  | [] => pure ()
  | target :: targets =>
    match values with
    | [] => pure ()
    | v :: rest => do
      assignTo call v target
      assignAll call rest targets

end

/-! ### Statements -/

/-- The rounds of a loop, of which a round does `body` for an item.  In each round the names of the
frame are new. -/
def turns (body : Value → Eval Unit) (again : Option (Nat × Rounds)) (id : Nat)
    (length : Option Nat) (depth : Nat) : Nat → Value → List Value → Eval Unit
  | _, _, [] => pure ()
  | index, previous, v :: rest => do
    let state := .loop id index length depth previous (rest.headD .undefined)
    modify (·.updateTop fun _ => ⟨[], some ⟨some state, again, depth⟩, none⟩)
    body v
    turns body again id length depth (index + 1) v rest

/-- The items that satisfy a condition. -/
def selected (condition : Value → Eval Bool) : List Value → Eval (List Value)
  | [] => pure []
  | v :: rest => do
    let keep ← condition v
    let more ← selected condition rest
    pure (if keep then v :: more else more)

/-- Another template is taken in.  There are no other templates. -/
def insertion (name : Value) (optional : Bool) : Result Unit :=
  let choices := match name with
    | .helper _ => []
    | _ => name.members?.getD [name]
  if choices.any fun v => v.text?.isNone then .error (.invalid "template name was not a string")
  else if optional then .ok ()
  else
    match choices with
    | [] => .ok ()
    | [v] => .error (.of .templateNotFound
        ("tried to include non-existing template " ++ Value.quote v.display))
    | _ => .error (.of .templateNotFound
        ("tried to include one of multiple templates, none of which existed " ++
          (Value.list choices).display))

/-- The blocks of another template are filled.  There are no other templates. -/
def inheritance (name : Value) : Result Unit :=
  match name with
  | .text s => .error (.of .templateNotFound ("template " ++ Value.quote s ++ " does not exist"))
  | _ => .error (.invalid "template name was not a string")

/-- Evaluates assignments one after the other. -/
def bindAll (call : Caller) : List (Target × Expr) → Eval Unit
  | [] => pure ()
  | (target, e) :: rest => do
    assignTo call (← e.eval call) target
    bindAll call rest

/-- The number of a new loop. -/
def newLoop : Eval Nat := fun s => .ok (s.loops, { s with loops := s.loops + 1 })

/-- How many loops that can be used again lie around a new one without a break. -/
def loopDepth : Eval Nat := do
  match (← get).loop with
  | some ⟨_, some _, depth⟩ => pure (depth + 1)
  | _ => pure 0

mutual

/-- Evaluates a statement. -/
def Stmt.exec (call : Caller) : Stmt → Eval Unit
  | .data text => emit text
  | .output e => do emit (← e.eval call).display
  | .branch condition yes no => do
    if (← condition.eval call).isTrue then execAll call yes else execAll call no
  | .loop line rounds sequence only => do
    let v ← sequence.eval call
    let items ← lift line v.items
    match only with
    | none => rounds.exec call line true items v.length?
    | some condition =>
      let items ← located line (inFrame ⟨[], some ⟨none, none, 0⟩, none⟩ (selected (fun item => do
        assignTo call item rounds.target
        pure (← condition.eval call).isTrue) items))
      rounds.exec call line true items (some items.length)
  | .bindings assignments body =>
    inFrame (.ofNames []) do
      bindAll call assignments
      execAll call body
  | .assign target e => do assignTo call (← e.eval call) target
  | .capture target filter body => do
    let text ← captured (execAll call body)
    modify ({ · with captured := .text text })
    assignTo call (← evalOption call (.text text) filter) target
  | .function signature body => modify (·.define signature body)
  | .block _ body => do
    let outside := (← get).inBlock
    modify ({ · with inBlock := true })
    inFrame (.ofNames []) (execAll call body)
    modify ({ · with inBlock := outside })
  | .insert line name optional => do
    let v ← name.eval call
    lift line (insertion v optional)
  | .borrow line name => do
    let v ← name.eval call
    lift line (insertion v false)
  | .inherit line name => do
    let v ← name.eval call
    lift line (inheritance v)

/-- Evaluates the rounds of a loop, and what stands in their place if there are none and the loop is
not used again within itself. -/
def Rounds.exec (call : Caller) (line : Nat) (outermost : Bool) (items : List Value)
    (length : Option Nat) : Rounds → Eval Unit
  | .mk target recursive body otherwise => do
    let again := if recursive then some (line, .mk target recursive body otherwise) else none
    let depth ← loopDepth
    let id ← newLoop
    located line (inFrame ⟨[], some ⟨none, again, depth⟩, none⟩ (turns (fun item => do
      assignTo call item target
      execAll call body) again id length depth 0 .undefined items))
    if items.isEmpty && outermost then execAll call otherwise

/-- Evaluates statements in order. -/
def execAll (call : Caller) : List Stmt → Eval Unit
  | [] => pure ()
  | s :: rest => do
    s.exec call
    execAll call rest

end

/-! ### Functions of the template -/

/-- The values of parameters in a call. -/
def bindParameters (parameters : List String) (args : Arguments) :
    Result (List (String × Value)) := do
  if parameters.length < args.positional.length then throw (.plain .tooManyArguments)
  let bound ← parameters.zipIdx.mapM fun (name, i) =>
    match args.positional[i]?, Value.lookup (.text name) args.named with
    | some _, some _ =>
      throw (Problem.of .tooManyArguments ("duplicate argument " ++ "`" ++ name ++ "`"))
    | some v, none => pure (name, v)
    | none, some v => pure (name, v)
    | none, none => pure (name, .undefined)
  match args.named.find? fun (k, _) => k.text?.any (!parameters.contains ·) with
  | some (k, _) =>
    throw (.of .tooManyArguments ("unknown keyword argument `" ++ k.display ++ "`"))
  | none => pure bound

/-- Assigns parameters from the last one to the first.  One that is undefined gets its default, and
the defaults belong to the last parameters. -/
def assignParameters (call : Caller) : List (String × Value) → List Expr → Eval Unit
  | [], _ => pure ()
  | (id, v) :: rest, [] => do
    modify (·.assign id v)
    assignParameters call rest []
  | (id, v) :: rest, e :: defaults => do
    let v ← if v.isUndefined then e.eval call else pure v
    modify (·.assign id v)
    assignParameters call rest defaults

/-- Calls a function that the template defines; `call` is how its body makes calls. -/
def callFunction (call : Caller) (id : Nat) (values : List Value) : Eval Value := do
  let outer ← get
  match outer.functions[id]? with
  | none => throw (.invalid "object is not callable")
  | some f =>
    let bound ← liftM (bindParameters f.signature.parameters (.ofValues values))
    let depth := outer.depth + outer.frames.length + callDepth
    if maxDepth < depth + 2 then throw recursionLimit
    set { outer with
      frames := [.ofNames []], base := outer.surroundings.getD f.surroundings [],
      depth := depth + 1, inFunction := true, output := "", blocks := [], inBlock := false }
    assignParameters call bound.reverse f.signature.defaults.reverse
    execAll call f.body
    let inner ← get
    set { outer with
      surroundings := inner.surroundings, functions := inner.functions, loops := inner.loops,
      watched := inner.watched }
    pure (.text inner.output)

/-- Calls of which at most `fuel` lie inside each other. -/
def Caller.ofFuel : Nat → Caller
  | 0 => ⟨fun _ _ => throw recursionLimit, fun _ _ => throw recursionLimit,
      fun _ => throw recursionLimit⟩
  | fuel + 1 =>
    let call := ofFuel fuel
    { function := callFunction call
      again := fun (line, rounds) v => do
        let items ← lift line v.items
        rounds.exec call line false items v.length?
      block := fun body => (Stmt.block "" body).exec call }

/-! ### Templates -/

/-- The text of a template that sees some names. -/
def evaluate (source : String) (names : Names) : Result String := do
  let script ← Script.parse source
  let call := Caller.ofFuel (2 * maxDepth)
  let (_, scope) ← execAll call script.statements (.ofNames script.blocks names)
  pure scope.output

/-- The text of a template for some data. -/
def render (source : String) (data : Json) : Result String := evaluate source (rootNames data)

end ServiceScaffold.Template
