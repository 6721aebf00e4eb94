import ServiceScaffold.Text.Blank

/-!
# Syntax trees

The tree of a text of TypeScript declarations.  A node knows its kind, the part it plays in its
parent (`FieldName`), where it starts and stops in the text, and its children, which include
comments and the tokens without a name.  What could not be read is held by nodes of the kind
`error`; a token that was expected and is absent is a node without text that is marked as missing.
-/

namespace ServiceScaffold.Syntax

/-- A place in a text: bytes from the start, lines before it, and bytes from the start of the
line. -/
structure Location where
  offset : Nat := 0
  row : Nat := 0
  column : Nat := 0
  deriving DecidableEq, Repr, Inhabited

/-- The place after one more character. -/
def Location.after (l : Location) (c : Char) : Location :=
  if c = '\n' then ⟨l.offset + 1, l.row + 1, 0⟩
  else ⟨l.offset + Text.byteWidth c, l.row, l.column + Text.byteWidth c⟩

/-- The kinds of nodes that are told apart. -/
inductive NodeKind where
  | program
  | error
  | comment
  | interpreterLine
  | exportStatement
  | interfaceDeclaration
  | interfaceBody
  | extendsClause
  | typeAliasDeclaration
  | lexicalDeclaration
  | variableDeclaration
  | variableDeclarator
  | propertySignature
  /-- A member of an interface other than a property. -/
  | member
  | typeAscription
  | identifier
  | typeIdentifier
  | propertyIdentifier
  | privateIdentifier
  | computedName
  | string
  | number
  | templateString
  | templateSubstitution
  | trueLiteral
  | falseLiteral
  | unaryExpression
  | asExpression
  | satisfiesExpression
  | parenthesizedExpression
  /-- Any other expression. -/
  | expression
  /-- Any type. -/
  | typeNode
  /-- Any other statement or declaration. -/
  | statement
  /-- A part of a statement, expression or type. -/
  | clause
  /-- A token without a name of its own. -/
  | token (text : String)
  deriving DecidableEq, Repr, Inhabited

namespace NodeKind

/-- The name of a kind in messages. -/
def text : NodeKind → String
  | .program => "program"
  | .error => "ERROR"
  | .comment => "comment"
  | .interpreterLine => "hash_bang_line"
  | .exportStatement => "export_statement"
  | .interfaceDeclaration => "interface_declaration"
  | .interfaceBody => "interface_body"
  | .extendsClause => "extends_type_clause"
  | .typeAliasDeclaration => "type_alias_declaration"
  | .lexicalDeclaration => "lexical_declaration"
  | .variableDeclaration => "variable_declaration"
  | .variableDeclarator => "variable_declarator"
  | .propertySignature => "property_signature"
  | .member => "member"
  | .typeAscription => "type_annotation"
  | .identifier => "identifier"
  | .typeIdentifier => "type_identifier"
  | .propertyIdentifier => "property_identifier"
  | .privateIdentifier => "private_property_identifier"
  | .computedName => "computed_property_name"
  | .string => "string"
  | .number => "number"
  | .templateString => "template_string"
  | .templateSubstitution => "template_substitution"
  | .trueLiteral => "true"
  | .falseLiteral => "false"
  | .unaryExpression => "unary_expression"
  | .asExpression => "as_expression"
  | .satisfiesExpression => "satisfies_expression"
  | .parenthesizedExpression => "parenthesized_expression"
  | .expression => "expression"
  | .typeNode => "type"
  | .statement => "statement"
  | .clause => "clause"
  | .token text => text

/-- The kind has a name of its own. -/
def isNamed : NodeKind → Bool
  | .token _ => false
  | _ => true

end NodeKind

/-- The part that a node plays in its parent. -/
inductive FieldName where
  | name
  | value
  | body
  | type
  | declaration
  | operator
  | argument
  deriving DecidableEq, Repr, Inhabited

/-- A node of a syntax tree. -/
inductive Node where
  | mk (kind : NodeKind) (field : Option FieldName) (start stop : Location) (missing : Bool)
      (children : List Node)
  deriving Repr, Inhabited

namespace Node

/-- The kind of a node. -/
def kind : Node → NodeKind
  | mk kind _ _ _ _ _ => kind

/-- The part that the node plays in its parent. -/
def field : Node → Option FieldName
  | mk _ field _ _ _ _ => field

/-- Where the node starts. -/
def start : Node → Location
  | mk _ _ start _ _ _ => start

/-- Where the node stops. -/
def stop : Node → Location
  | mk _ _ _ stop _ _ => stop

/-- The node stands for an absent token. -/
def missing : Node → Bool
  | mk _ _ _ _ missing _ => missing

/-- The children of the node, comments and tokens included. -/
def children : Node → List Node
  | mk _ _ _ _ _ children => children

/-- The same node in a given part. -/
def withField (f : FieldName) : Node → Node
  | mk kind _ start stop missing children => mk kind (some f) start stop missing children

/-- The node holds what could not be read. -/
def isError (n : Node) : Bool := n.kind == .error

/-- The children whose kinds have names. -/
def namedChildren (n : Node) : List Node := n.children.filter (·.kind.isNamed)

/-- The first child in a part. -/
def child? (n : Node) (f : FieldName) : Option Node := n.children.find? (·.field == some f)

mutual

/-- The node or a node below it is an error or missing. -/
def hasError : Node → Bool
  | mk kind _ _ _ missing children => kind == .error || missing || anyError children

/-- One of the nodes or a node below it is an error or missing. -/
def anyError : List Node → Bool
  | [] => false
  | n :: rest => n.hasError || anyError rest

end

/-- The text of the node in its source. -/
def text (source : List Char) (n : Node) : List Char :=
  Text.slice n.start.offset n.stop.offset source

mutual

/-- The node and all nodes below it: each node before its children, and these from left to
right. -/
def preorder : Node → List Node
  | mk kind field start stop missing children =>
    mk kind field start stop missing children :: preorderAll children

/-- The listings of several nodes, one after the other. -/
def preorderAll : List Node → List Node
  | [] => []
  | n :: rest => preorder n ++ preorderAll rest

end

mutual

/-- Number of nodes of a tree. -/
def size : Node → Nat
  | mk _ _ _ _ _ children => sizeAll children + 1

/-- Number of nodes of several trees. -/
def sizeAll : List Node → Nat
  | [] => 0
  | n :: rest => n.size + sizeAll rest

end

end Node

end ServiceScaffold.Syntax
