import ServiceScaffold.Keyed
import ServiceScaffold.Template.Filters
import ServiceScaffold.Template.Tree

/-!
# Scopes of templates

What the names of a template stand for while it is evaluated.  Loops, bindings, blocks and calls
open a frame of names of their own.  At the bottom lie the names that were given from outside, in
which the helpers win over the data.
-/

namespace ServiceScaffold.Template

/-- Names and their values. -/
abbrev Names := List (String × Value)

/-- A function that the template has defined. -/
structure Function where
  signature : Signature
  body : List Stmt
  /-- The frame of names, by number, that the function sees. -/
  surroundings : Nat
  deriving Inhabited

/-- A loop that is under way. -/
structure Loop where
  /-- What `loop` stands for, unless the loop only selects items. -/
  state : Option Value
  /-- What is done with the parts of an item, if the loop can be used for them again, and the line
  of the loop. -/
  again : Option (Nat × Rounds)
  /-- Number of loops over parts of items that are around this one. -/
  depth : Nat
  deriving Inhabited

/-- Names that hold for a part of the template. -/
structure Frame where
  names : Names
  /-- The loop that opened the frame. -/
  loop : Option Loop
  /-- The names, by number, that functions defined in the frame see. -/
  surroundings : Option Nat
  deriving Inhabited

/-- The state of an evaluation. -/
structure Scope where
  /-- The innermost frame comes first. -/
  frames : List Frame
  base : Names
  /-- Number of frames around the function that is being called. -/
  depth : Nat
  /-- A function is being called: then a name without a value is undefined. -/
  inFunction : Bool
  output : String
  /-- The text of the block to which filters are applied. -/
  captured : Value
  /-- The names that functions see. -/
  surroundings : List Names
  functions : List Function
  /-- The blocks of the template. -/
  blocks : List (String × List Stmt)
  /-- A block is being evaluated. -/
  inBlock : Bool
  /-- Number of the loops up to now. -/
  loops : Nat
  /-- What loops, by number, were last asked to watch. -/
  watched : List (Nat × List Value)
  deriving Inhabited

namespace Frame

/-- A frame with some names. -/
def ofNames (names : Names) : Frame := ⟨names, none, none⟩

/-- What `loop` stands for in a frame. -/
def loopState (f : Frame) : Option Value := f.loop.bind Loop.state

/-- What a name stands for in a frame. -/
def lookup (id : String) (f : Frame) : Option Value :=
  match Keyed.lookup id f.names with
  | some v => some v
  | none => if id = "loop" then f.loopState else none

end Frame

/-- The greatest depth of frames. -/
def maxDepth : Nat := 500

/-- What a call of a function adds to the depth. -/
def callDepth : Nat := 4

namespace Scope

/-- What a name stands for. -/
def lookup (s : Scope) (id : String) : Option Value :=
  match s.frames.findSome? (Frame.lookup id) with
  | some v => some v
  | none =>
    match Keyed.lookup id s.base with
    | some v => some v
    | none =>
      if id = "range" then some (.helper .range)
      else if s.inFunction then some .undefined
      else none

/-- All names with what they stand for; of equal names the first one counts. -/
def visible (s : Scope) : Names :=
  s.frames.flatMap (fun f => f.names ++ (f.loopState.map fun v => ("loop", v)).toList) ++ s.base

/-- The innermost loop. -/
def loop (s : Scope) : Option Loop := s.frames.findSome? Frame.loop

/-- Changes the innermost frame. -/
def updateTop (f : Frame → Frame) (s : Scope) : Scope :=
  match s.frames with
  | top :: rest => { s with frames := f top :: rest }
  | [] => { s with frames := [f (.ofNames [])] }

/-- Sets a name in the innermost frame and for the functions defined there. -/
def assign (id : String) (v : Value) (s : Scope) : Scope :=
  let s := s.updateTop fun f => { f with names := Keyed.put id v f.names }
  match s.frames.head?.bind Frame.surroundings with
  | some n => { s with surroundings := s.surroundings.modify n (Keyed.put id v) }
  | none => s

/-- The names that a function defined at this point sees, by number. -/
def enclose (s : Scope) : Nat × Scope :=
  match s.frames.head?.bind Frame.surroundings with
  | some n => (n, { s with surroundings := s.surroundings.set n s.visible })
  | none =>
    let n := s.surroundings.length
    let s := { s with surroundings := s.surroundings ++ [s.visible] }
    (n, s.updateTop fun f => { f with surroundings := some n })

/-- Defines a function. -/
def define (signature : Signature) (body : List Stmt) (s : Scope) : Scope :=
  let (n, s) := s.enclose
  let id := s.functions.length
  let function : Function := ⟨signature, body, n⟩
  let s := { s with functions := s.functions ++ [function] }
  s.assign signature.name (.defined id signature.name signature.parameters)

end Scope

/-! ### Names from outside -/

/-- The helpers under their names. -/
def helperNames : Names :=
  [Helper.camelCase, .pascalCase, .snakeCase, .kebabCase, .pluralize, .toJson].map fun h =>
    (h.name, .helper h)

/-- The names that data give: those of an object, and `data` for any other value but null. -/
def dataNames : Json → Names
  | .obj fields => (Keyed.sortedFields fields).map fun (k, v) => (k, .ofJson v)
  | .null => []
  | other => [("data", .ofJson other)]

/-- The names that a template starts with: those of the data, and then the helpers, each of which
takes the place of data of its name. -/
def rootNames (data : Json) : Names :=
  helperNames.foldl (fun names helper => Keyed.insertSorted helper names) (dataNames data)

/-- The state in which the evaluation of a template with some blocks starts, which sees some names
from outside. -/
def Scope.ofNames (blocks : List (String × List Stmt)) (names : Names) : Scope :=
  { frames := [.ofNames []], base := names, depth := 0, inFunction := false, output := "",
    captured := .undefined, surroundings := [], functions := [], blocks, inBlock := false,
    loops := 0, watched := [] }

end ServiceScaffold.Template
