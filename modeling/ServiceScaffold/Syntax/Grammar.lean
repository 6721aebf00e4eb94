import ServiceScaffold.Syntax.Grammar.Expressions
import ServiceScaffold.Syntax.Grammar.Statements

/-!
# The grammar of TypeScript

The rule of every goal, and `parse`, which reads a whole text.

Left out is what looser grammars of the language take besides, though no compiler does: object types
between `{|` and `|}`, numbers such as `00.5`, comments that start with `<!--`, and what becomes of a
name that is a keyword, as in `export const class`.  What is proved of extraction is therefore proved
for every tree, as far as it does not depend on how texts are read.
-/

namespace ServiceScaffold.Syntax

open Grammar

/-- The grammar. -/
def grammar : Goal → Rule Goal
  | .item => item
  | .statement => statement
  | .declaration => declaration
  | .exportStatement => exportStatement
  | .block => block
  | .classDeclaration => classDeclaration
  | .decorator => decorator
  | .expression => expression
  | .sequence => sequence
  | .operand => operand
  | .chain => chain
  | .primary => primary
  | .arguments => arguments
  | .pattern => pattern
  | .parameters => parameters
  | .propertyName => propertyName
  | .type => type
  | .typeOperand => typeOperand
  | .typePrimary => typePrimary
  | .typeArguments => typeArguments
  | .typeParameters => typeParameters
  | .typeAscription => typeAscription
  | .returnAscription => returnAscription
  | .returnType => returnType
  | .objectType => objectType
  | .interfaceBody => interfaceBody
  | .typeMember => typeMember

/-- A line at the start of a text that names its interpreter. -/
def interpreterLine? : List Char → Option (List Char)
  | '#' :: '!' :: rest => some (rest.dropWhile (!isLineEnd ·))
  | _ => none

/-- The state before the first statement of a text. -/
def startOf (source : List Char) : Scan :=
  match interpreterLine? source with
  | some rest =>
    let stop := Location.skipTo {} source rest
    (Scan.ofText stop rest).push (.mk .interpreterLine none {} stop false [])
  | none => Scan.ofText {} source

/-- The tree of a text. -/
def parse (source : List Char) : Node :=
  let read := Rule.read (readGoal grammar (40 * (source.length + 10))) rootItem
  let s := ((startOf source).repeatedly read (source.length + 1)).pushComments
  .mk .program none {} s.stop false s.children.reverse

end ServiceScaffold.Syntax
