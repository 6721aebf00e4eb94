import ServiceScaffold.Syntax.Rule

/-!
# Goals of the grammar

The goals that the rules of the grammar of TypeScript refer to, and rules that are common to its
parts.
-/

namespace ServiceScaffold.Syntax

/-- The goals of the grammar. -/
inductive Goal where
  /-- A statement, or an error in its place. -/
  | item
  | statement
  | declaration
  | exportStatement
  | block
  | classDeclaration
  | decorator
  /-- An expression without commas. -/
  | expression
  /-- Expressions with commas between them. -/
  | sequence
  /-- An expression without operators between operands. -/
  | operand
  /-- An operand without operators before it. -/
  | chain
  | primary
  | arguments
  /-- What a value is bound to. -/
  | pattern
  | parameters
  | propertyName
  | type
  | typeOperand
  | typePrimary
  | typeArguments
  | typeParameters
  | typeAscription
  /-- The type of what a function returns. -/
  | returnAscription
  | returnType
  | objectType
  | interfaceBody
  | typeMember
  deriving DecidableEq, Repr, Inhabited

namespace Grammar

open Rule

/-- A rule of the grammar. -/
abbrev R := Rule Goal

/-- An opening brace. -/
def openBrace : R := .mark "\x7b"

/-- A closing brace. -/
def closeBrace : R := .mark "\x7d"

/-- The closing brace of a statement that ends with it; at the end of the text it may be absent. -/
def lastBrace : R := any [closeBrace, all [.finish, .missing (.token "\x7d")]]

/-- A closing bracket; before the end of the statement it may be absent. -/
def closing (characters : String) : R :=
  any [.mark characters,
    all [.ahead (any [.mark ";", openBrace, closeBrace]), .missing (.token characters)]]

/-- `rule` in round brackets. -/
def parens (rule : R) : R := .breaking false (all [.mark "(", rule, closing ")"])

/-- `rule` in square brackets. -/
def brackets (rule : R) : R := .breaking false (all [.mark "[", rule, closing "]"])

/-- `rule` in angle brackets. -/
def angles (rule : R) : R := .breaking false (all [.mark "<", rule, closing ">"])

/-- `rule` in braces. -/
def braces (rule : R) : R := .breaking false (all [openBrace, rule, closing "\x7d"])

/-- Any word, as a node. -/
def anyName (kind : NodeKind) : R := .name kind []

/-- A string. -/
def string : R := .literal .string .string

/-- A number. -/
def number : R := .literal .number .number

/-- A name with a hash. -/
def privateName : R := .literal .privateName .privateIdentifier

/-- A number without a sign or with one. -/
def signedNumber : R := all [opt (any [.mark "-", .mark "+"]), number]

/-- Names with dots between them. -/
def dottedName (first : R) : R := all [first, .many (all [.mark ".", anyName .identifier])]

/-- A text in back quotes, with `hole` in its substitutions. -/
def template (hole : R) : R :=
  .node .templateString (.breaking false (all [.literal .backQuote (.token "`"), .templateText,
    .many (all [.node .templateSubstitution (all [.substitutionStart, hole, closeBrace]),
      .templateText]),
    .literal .backQuote (.token "`")]))

/-- Words that stand before the name of a member, if it follows. -/
def modifiers (words : List String) : R :=
  .many (all [any (words.map .word), .sameLine,
    .ahead (any [anyName .clause, string, number, privateName, .mark "[", .mark "*", openBrace])])

end Grammar

end ServiceScaffold.Syntax
