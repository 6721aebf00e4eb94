import ServiceScaffold.Failure
import ServiceScaffold.Schema.Basic
import ServiceScaffold.Schema.DocComment
import ServiceScaffold.Syntax.Grammar
import ServiceScaffold.Syntax.Walk

/-!
# Schemas of texts

Which schema a text of TypeScript declarations describes.  `Schema.ofTree` walks a syntax tree and
collects the exported interfaces, type aliases and constants, together with a warning for each
declaration or member that it leaves out; `Schema.ofSource` reads the text first, and fails if
nothing but errors comes of it.
-/

namespace ServiceScaffold

open Syntax Text

/-! ### Literals -/

/-- A text without the quotes around it. -/
def unquote (raw : List Char) : List Char :=
  match raw, raw.getLast? with
  | first :: second :: rest, some last =>
    if first = last ∧ (first = '"' ∨ first = '\'' ∨ first = '`') then (second :: rest).dropLast
    else raw
  | _, _ => raw

/-- The value of digits of a base from 2 to 16. -/
def natOfBase? (base : Nat) (digits : List Char) : Option Nat :=
  if digits.isEmpty then none
  else digits.foldl
    (fun total c => total.bind fun n =>
      (Number.hexValue? c).bind fun d => if d < base then some (base * n + d) else none)
    (some 0)

/-- The value of a number that starts with the mark of a base, if it is below `2 ^ 63`. -/
def basedNumber? (mark : String) (base : Nat) (text : List Char) : Option Binary64 :=
  ((stripFront? mark.toList text).bind (natOfBase? base)).bind fun n =>
    if n < Nat.pow 2 63 then some (Binary64.ofInt n) else none

/-- The value of a number: underscores do not count, and neither does the mark of big integers
after decimal digits. -/
def numberOf? (text : List Char) : Option Binary64 :=
  let lower := (text.filter (· != '_')).map Char.toLower
  ((basedNumber? "0x" 16 lower).orElse fun _ => basedNumber? "0o" 8 lower).orElse fun _ =>
    (basedNumber? "0b" 2 lower).orElse fun _ =>
      Number.parseDecimal? (dropEndWhile (· == 'n') lower)

namespace Syntax

/-- The operator of a node. -/
def Node.operator? (n : Node) : Option NodeKind := (n.child? .operator).map Node.kind

mutual

/-- The value of a literal, of a signed number, and of either with a type or in brackets. -/
def Node.literal? (source : List Char) : Node → Option ConstantValue
  | .mk kind field start stop missing children =>
    let text := Text.slice start.offset stop.offset source
    match kind with
    | .string => some (.text (String.ofList (unquote text)))
    | .templateString =>
      if children.any (·.kind == .templateSubstitution) then none
      else some (.text (String.ofList (unquote text)))
    | .number => (numberOf? text).map .number
    | .trueLiteral => some (.bool true)
    | .falseLiteral => some (.bool false)
    | .unaryExpression =>
      match (Node.mk kind field start stop missing children).operator?,
          argumentLiteral? source children with
      | some (.token "-"), some (.number x) => some (.number x.neg)
      | some (.token "+"), some (.number x) => some (.number x)
      | _, _ => none
    | .asExpression | .satisfiesExpression | .parenthesizedExpression =>
      firstLiteral? source children
    | _ => none

/-- The value of the first node in the part of the argument. -/
def argumentLiteral? (source : List Char) : List Node → Option ConstantValue
  | [] => none
  | n :: rest =>
    if n.field == some .argument then n.literal? source else argumentLiteral? source rest

/-- The value of the first node whose kind has a name. -/
def firstLiteral? (source : List Char) : List Node → Option ConstantValue
  | [] => none
  | n :: rest => if n.kind.isNamed then n.literal? source else firstLiteral? source rest

end

end Syntax

/-! ### Documentation -/

/-- The nearest documentation comment among the nodes before a node, the nearest first.  Other
comments and separators are passed over. -/
def adjacentDoc? (source : List Char) : List Node → Option (List Char)
  | [] => none
  | n :: rest =>
    if n.kind = .comment then
      let text := n.text source
      if DocComment.opener.isPrefixOf text then some text else adjacentDoc? source rest
    else if n.kind = .token ";" ∨ n.kind = .token "," then adjacentDoc? source rest
    else none

namespace Syntax.Cursor

/-- The node in an export statement, and else the node itself. -/
def exported (c : Cursor) : Cursor :=
  match c.parent? with
  | some parent => if parent.node.kind = .exportStatement then parent else c
  | none => c

/-- The documentation comment of a node: the nearest one before it or before its export statement,
else the block that the text before them ends with. -/
def doc? (source : List Char) (c : Cursor) : Option DocComment :=
  let raw := (adjacentDoc? source c.before).orElse fun _ =>
    (adjacentDoc? source c.exported.before).orElse fun _ =>
      DocComment.trailingBlock? (takeBytes c.exported.node.start.offset source)
  raw.map DocComment.parse

end Syntax.Cursor

/-- The description that a documentation comment gives. -/
def descriptionIn (doc : Option DocComment) : Option String :=
  (doc.bind (·.description)).map String.ofList

/-- The roles that a documentation comment gives. -/
def rolesIn (doc : Option DocComment) : List Role := (doc.map (·.roles)).getD []

/-! ### Declarations -/

/-- The place of a node, as the details of a failure. -/
def Failure.located (path : String) (n : Node) (f : Failure) : Failure :=
  ((f.withText "path" path).withDetail "line" (.int (n.start.row + 1))).withDetail "column"
    (.int (n.start.column + 1))

/-- A declaration that belongs to a schema. -/
inductive Declaration where
  | interface (i : Interface) (roles : List Role) (warnings : List Failure)
  | typeAlias (a : TypeAlias) (roles : List Role)
  | constants (values : List (String × ConstantValue))
  deriving Inhabited

/-- The text of a node with every run of blanks as one space. -/
def collapsedText (source : List Char) (n : Node) : String :=
  String.ofList (collapseBlanks (n.text source))

/-- The text of the child in the part of the name. -/
def nameText? (source : List Char) (n : Node) : Option String :=
  (n.child? .name).map fun c => String.ofList (c.text source)

/-- The name of a declaration. -/
def declaredName (source : List Char) (what : String) (n : Node) : Except Failure String :=
  match nameText? source n with
  | some name =>
    if name.isEmpty then .error (.new .declaration (what ++ " has no name")) else .ok name
  | none => .error (.new .declaration (what ++ " has no name"))

/-- The name of a property from the node that holds it. -/
def propertyName (source : List Char) (n : Node) : Except Failure String :=
  let raw := n.text source
  let name := match n.kind with
    | .propertyIdentifier | .privateIdentifier | .number => some raw
    | .string => some (unquote raw)
    | _ => none
  match name with
  | none =>
    let shown := String.ofList raw
    .error (((Failure.new .declaration ("unsupported property name `" ++ shown ++ "`")).withText
      "member" shown).withText "kind" n.kind.text)
  | some [] => .error (.new .declaration "property member has an empty name")
  | some name => .ok (String.ofList name)

/-- The text of a property's type; without an annotation it is `any`. -/
def propertyType (source : List Char) (n : Node) : String :=
  match (n.child? .type).bind (·.namedChildren.head?) with
  | some t => collapsedText source t
  | none => "any"

/-- A property of an interface. -/
def propertyOf (source : List Char) (c : Cursor) : Except Failure Property :=
  match c.node.child? .name with
  | none => .error (.new .declaration "property member has no name")
  | some name => (propertyName source name).map fun name =>
    { name := name
      type := propertyType source c.node
      isOptional := c.node.children.any (·.kind == .token "?")
      description := descriptionIn (c.doc? source) }

/-- The types that an interface extends. -/
def parentsOf (source : List Char) (n : Node) : List String :=
  ((n.namedChildren.filter (·.kind == .extendsClause)).flatMap fun clause =>
    clause.namedChildren.filter (·.kind != .comment)).map (collapsedText source)

/-- The properties of an interface and the warnings about those left out. -/
def propertiesOf (source : List Char) (path name : String) (members : List Cursor) :
    List Property × List Failure :=
  let results := (members.filter (·.node.kind == .propertySignature)).map fun c =>
    (c, propertyOf source c)
  (results.filterMap fun (_, r) => r.toOption,
    results.filterMap fun (c, r) => match r with
      | .ok _ => none
      | .error f => some ((f.withText "declaration" name).located path c.node))

/-- An interface. -/
def interfaceOf (source : List Char) (path : String) (c : Cursor) : Except Failure Declaration := do
  let name ← declaredName source "interface" c.node
  let doc := c.doc? source
  let members := ((c.child? .body).map (·.namedChildren)).getD []
  let (properties, warnings) := propertiesOf source path name members
  pure (.interface ⟨name, descriptionIn doc, parentsOf source c.node, properties⟩ (rolesIn doc)
    warnings)

/-- A type alias. -/
def typeAliasOf (source : List Char) (c : Cursor) : Except Failure Declaration := do
  let name ← declaredName source "type alias" c.node
  let doc := c.doc? source
  match c.node.child? .value with
  | some value =>
    pure (.typeAlias ⟨name, collapsedText source value, descriptionIn doc⟩ (rolesIn doc))
  | none =>
    throw ((Failure.new .declaration
      ("type alias `" ++ name ++ "` has no right-hand side")).withText "declaration" name)

/-- A constant with a literal as its value. -/
def constantOf? (source : List Char) (n : Node) : Option (String × ConstantValue) :=
  (n.child? .name).bind fun name =>
    if name.kind != .identifier then none
    else ((n.child? .value).bind (·.literal? source)).map fun value =>
      (String.ofList (name.text source), value)

/-- The constants of a declaration of variables. -/
def constantsOf (source : List Char) (n : Node) : List (String × ConstantValue) :=
  (n.namedChildren.filter (·.kind == .variableDeclarator)).filterMap (constantOf? source)

/-- The declaration belongs to a schema; constants do so only at the top of the text. -/
def isSupported (isTop : Bool) : NodeKind → Bool
  | .interfaceDeclaration | .typeAliasDeclaration => true
  | .lexicalDeclaration | .variableDeclaration => isTop
  | _ => false

/-- The declaration of a node that belongs to a schema. -/
def declarationOf (source : List Char) (path : String) (c : Cursor) : Except Failure Declaration :=
  match c.node.kind with
  | .interfaceDeclaration => interfaceOf source path c
  | .typeAliasDeclaration => typeAliasOf source c
  | _ => .ok (.constants (constantsOf source c.node))

/-- The failure of a declaration that holds an error. -/
def brokenDeclaration (source : List Char) (n : Node) : Failure :=
  let name := (nameText? source n).getD "<unnamed>"
  ((Failure.new .declaration ("declaration `" ++ name ++ "` contains a syntax error")).withText
    "declaration" name).withText "kind" n.kind.text

/-- What an export statement declares, none if it does not belong to a schema. -/
def exportOf (source : List Char) (path : String) (c : Cursor) :
    Option (Except Failure Declaration) :=
  match c.child? .declaration with
  | none =>
    if c.node.hasError then
      some (.error ((Failure.new .declaration "malformed export statement skipped").located path
        c.node))
    else none
  | some d =>
    let isTop := (c.parent?.map fun p => p.node.kind == .program).getD false
    if !isSupported isTop d.node.kind then none
    else if c.node.hasError then
      some (.error ((brokenDeclaration source d.node).located path d.node))
    else some ((declarationOf source path d).mapError (·.located path d.node))

/-! ### Whole texts -/

/-- What has been found in a text. -/
structure Findings where
  version : Option String := none
  interfaces : List (String × Interface) := []
  types : List (String × TypeAlias) := []
  constants : List (String × ConstantValue) := []
  roles : RoleLists := {}
  /-- The names of the declared types, as they came. -/
  names : List String := []
  /-- What was left out, the last one first. -/
  warnings : List Failure := []
  deriving Inhabited

namespace Findings

/-- Adds a warning. -/
def warn (s : Findings) (f : Failure) : Findings := { s with warnings := f :: s.warnings }

/-- Adds a constant; one of them holds the version. -/
def addConstant (s : Findings) (name : String) (value : ConstantValue) : Findings :=
  { s with
    version := if name = Schema.versionConstant then some value.show else s.version
    constants := Keyed.put name value s.constants }

/-- Adds a declaration; a later one takes the place of an earlier one with its name. -/
def add (s : Findings) : Declaration → Findings
  | .interface i roles warnings =>
    warnings.foldl warn
      { s with
        interfaces := Keyed.put i.name i s.interfaces
        roles := s.roles.insertAll roles i.name
        names := s.names ++ [i.name] }
  | .typeAlias a roles =>
    { s with
      types := Keyed.put a.name a s.types
      roles := s.roles.insertAll roles a.name
      names := s.names ++ [a.name] }
  | .constants values => values.foldl (fun s (name, value) => s.addConstant name value) s

/-- The node is an error right below the root. -/
def isSkippedRegion (c : Cursor) : Bool :=
  c.node.isError && ((c.parent?.map fun p => p.way.isEmpty).getD false)

/-- Visits a node. -/
def visit (source : List Char) (path : String) (s : Findings) (c : Cursor) : Findings :=
  if c.node.kind = .exportStatement then
    match exportOf source path c with
    | some (.ok d) => s.add d
    | some (.error f) => s.warn f
    | none => s
  else if isSkippedRegion c then
    s.warn ((Failure.new .declaration "unparseable source region skipped").located path c.node)
  else s

/-- The schema of the findings; names that follow a convention get its role. -/
def schema (s : Findings) : Schema :=
  Schema.ofDeclarations (s.version.getD Schema.unknownVersion) s.interfaces s.types s.constants
    (s.roles.classify s.names)

end Findings

/-- A schema and the warnings about what was left out. -/
structure Extraction where
  schema : Schema
  warnings : List Failure
  deriving Inhabited

namespace Schema

/-- Nothing but errors came of the text, comments aside. -/
def isHopeless (root : Node) : Bool :=
  let statements := root.namedChildren.filter (·.kind != .comment)
  root.isError || (!statements.isEmpty && statements.all (·.isError))

/-- The failure to read a text. -/
def unreadable (path : String) (root : Node) : Failure :=
  let statements := root.namedChildren.filter (·.kind != .comment)
  (Failure.new .parse (path ++ " could not be parsed as TypeScript")).located path
    (statements.headD root)

/-- The schema of a syntax tree. -/
def ofTree (source : List Char) (path : String) (root : Node) : Extraction :=
  let findings := (Cursor.walk root).foldl (Findings.visit source path) {}
  ⟨findings.schema, findings.warnings.reverse⟩

/-- The schema of a text. -/
def ofSource (source path : String) : Except Failure Extraction :=
  let root := parse source.toList
  if isHopeless root then .error (unreadable path root)
  else .ok (ofTree source.toList path root)

end Schema

end ServiceScaffold
