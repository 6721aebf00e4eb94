import ServiceScaffold.Syntax.Grammar.Types

/-!
# Rules of statements and declarations

Declarations that can be exported have nodes of their own kinds where a schema uses them.
-/

namespace ServiceScaffold.Syntax.Grammar

open Rule

/-- A statement of another kind. -/
def statementOf (parts : List R) : R := .node .statement (all parts)

/-- The end of a declaration.  Before another statement it may be absent, and closing brackets may
stand before it. -/
def declarationEnd (inExpression : Bool) : R :=
  any [.semicolon inExpression,
    all [.ahead (any [anyName .clause, number, string, .mark "<", openBrace]),
      .missing (.token ";")],
    all [.inLenient, .node .error (.many1 (any [.mark ")", .mark "]", closeBrace])), .mark ";"]]

/-! ### Declarations of a schema -/

/-- The name of a declared type. -/
def declaredName : R := .part .name (anyName .typeIdentifier)

/-- A type by its name, with arguments. -/
def namedType : R :=
  .node .typeNode (any [all [dottedName (anyName .typeIdentifier), opt (.goal .typeArguments)],
    all [.ahead openBrace, .missing .typeIdentifier]])

/-- An interface. -/
def interfaceDeclaration : R :=
  .node .interfaceDeclaration (all [
    .word "interface",
    declaredName,
    opt (.goal .typeParameters),
    opt (.node .extendsClause (all [.word "extends", list1 (.mark ",") namedType])),
    opt (.skippedTo "\x7b"),
    .part .body (.goal .interfaceBody)])

/-- A name for a type. -/
def typeAlias : R :=
  .node .typeAliasDeclaration (all [
    .word "type",
    declaredName,
    opt (.goal .typeParameters),
    .mark "=",
    .part .value (.goal .type),
    declarationEnd false])

/-- A variable with its value. -/
def declarator : R :=
  .node .variableDeclarator (all [
    .part .name (.goal .pattern),
    opt (.mark "!"),
    opt (.part .type (.goal .typeAscription)),
    opt (all [.mark "=", .part .value (any [.goal .expression,
      all [.ahead (any [.mark ";", .mark ","]), .missing .identifier]])])])

/-- Constants and variables. -/
def variableDeclarations : R :=
  any [
    .node .lexicalDeclaration (all [
      any [.word "const",
        all [.word "let", .ahead (any [anyName .clause, openBrace, .mark "["])]],
      list1 (.mark ",") declarator, declarationEnd true]),
    .node .variableDeclaration (all [.word "var", list1 (.mark ",") declarator,
      declarationEnd true])]

/-! ### Other declarations -/

/-- An enumeration. -/
def enumeration : R :=
  statementOf [opt (.word "const"), .word "enum", anyName .identifier,
    .breaking false (all [openBrace, opt (list (.mark ",") (all [.goal .propertyName,
      opt (all [.mark "=", .goal .expression])])), any [lastBrace, closing "\x7d"]])]

/-- A function. -/
def functionDeclaration : R :=
  statementOf [opt (all [.word "async", .goesOn true]), .word "function", opt (.mark "*"),
    anyName .identifier, opt (.goal .typeParameters), .goal .parameters,
    opt (.goal .returnAscription), any [.goal .block, .semicolon true]]

/-- Words before a member of a class. -/
def classModifiers : R :=
  modifiers ["public", "private", "protected", "static", "override", "readonly", "abstract",
    "declare", "accessor", "async", "get", "set"]

/-- The end of a member of a class without a body. -/
def classMemberEnd : R := any [.mark ",", .semicolon true]

/-- A member of a class. -/
def classMember : R :=
  any [
    .mark ";",
    .goal .decorator,
    .node .member (all [.word "static", .goal .block]),
    .node .member (all [opt (.word "static"), opt (.word "readonly"),
      brackets (all [anyName .identifier, .mark ":", .goal .type]), .goal .typeAscription,
      classMemberEnd]),
    .node .member (all [classModifiers, opt (.mark "*"), .goal .propertyName,
      opt (any [.mark "?", .mark "!"]), opt (.goal .typeParameters), .goal .parameters,
      opt (.goal .returnAscription), any [.goal .block, classMemberEnd]]),
    .node .member (all [classModifiers, .goal .propertyName,
      opt (any [.mark "?", .mark "!"]), opt (.goal .typeAscription),
      opt (all [.mark "=", .goal .expression]), classMemberEnd])]

/-- A class. -/
def classDeclaration : R :=
  statementOf [
    .many (.goal .decorator), opt (.word "abstract"), .word "class",
    opt (.name .typeIdentifier ["extends", "implements"]), opt (.goal .typeParameters),
    opt (all [.word "extends", list1 (.mark ",") (all [.goal .chain, opt (.goal .typeArguments)])]),
    opt (all [.word "implements", list1 (.mark ",") (.goal .type)]),
    .breaking true (all [openBrace, .many classMember, lastBrace])]

/-- A mark on a declaration. -/
def decorator : R := .node .clause (all [.mark "@", .goal .chain])

/-- A named block of declarations. -/
def moduleDeclaration : R :=
  statementOf [any [.word "namespace", .word "module"], .goesOn true,
    any [string, dottedName (anyName .identifier)],
    any [.goal .block, .semicolon true]]

/-- A declaration of something that is defined elsewhere. -/
def ambientDeclaration : R :=
  statementOf [.word "declare", .goesOn true, any [
    .goal .declaration,
    all [.word "global", .goal .block],
    all [.word "module", .mark ".", anyName .identifier, .mark ":", .goal .type,
      .semicolon false]]]

/-- Another name for an import. -/
def importAlias : R :=
  statementOf [.word "import", opt (all [.word "type", .ahead (anyName .clause)]),
    anyName .identifier, .mark "=", dottedName (anyName .identifier), .semicolon true]

/-- A declaration. -/
def declaration : R :=
  any [interfaceDeclaration, typeAlias, enumeration, variableDeclarations, functionDeclaration,
    all [.ahead (any [.word "class", all [.word "abstract", .word "class"], .mark "@"]),
      .goal .classDeclaration],
    moduleDeclaration, ambientDeclaration, importAlias]

/-! ### Imports and exports -/

/-- The text that names another module. -/
def fromClause : R :=
  all [.word "from", string,
    opt (all [any [.word "with", .word "assert"], .goal .primary])]

/-- Names in braces, some with another name. -/
def nameList : R :=
  braces (opt (list (.mark ",") (.node .clause (all [
    opt (all [any [.word "type", .word "typeof"],
      .ahead (any [all [anyName .clause, any [.mark ",", closeBrace]],
        all [.name .clause ["as"], .word "as"], string])]),
    any [anyName .identifier, string],
    opt (all [.word "as", any [anyName .identifier, string]])]))))

/-- All names of a module, with a name for all of them together. -/
def starImport : R := all [.mark "*", .word "as", anyName .identifier]

/-- An import. -/
def importStatement : R :=
  statementOf [.word "import", any [
    all [string, opt (all [any [.word "with", .word "assert"], .goal .primary])],
    all [
      opt (all [any [.word "type", .word "typeof"], .notAhead (any [.word "from", .mark ",",
        .mark "="])]),
      any [
        all [anyName .identifier, .mark "=", .word "require", parens string],
        all [starImport, fromClause],
        all [nameList, fromClause],
        all [anyName .identifier, opt (all [.mark ",", any [starImport, nameList]]),
          fromClause]]]],
    .semicolon true]

/-- What follows the word for an export if an interface has no name: the braces are read as
names. -/
def brokenInterface : R :=
  all [.ahead (all [.word "interface", any [number, string, openBrace]]), .skippedTo "\x7b",
    any [nameList, all [openBrace, .skippedTo "\x7d", closeBrace]]]

/-- What follows the word for an export if an alias or a constant has no name: the value is read as
what is exported. -/
def brokenAssignment : R :=
  all [.ahead (all [any (["type", "const", "let", "var"].map .word), opt (any [number, string]),
      .mark "="]), .skippedTo "=", .mark "=", .goal .expression, .semicolon true]

/-- An export. -/
def exportStatement : R :=
  .mended (.node .exportStatement (all [
    .many (.goal .decorator),
    .word "export",
    .goesOn true,
    any [
      all [.mark "*", opt (all [.word "as", any [anyName .identifier, string]]), fromClause,
        .semicolon true],
      all [opt (.word "type"), nameList, opt fromClause, .semicolon true],
      all [.word "default", any [
        .part .declaration (.goal .declaration),
        all [.part .value (.goal .expression), .semicolon true]]],
      all [.mark "=", .goal .expression, .semicolon true],
      all [.word "as", .word "namespace", anyName .identifier, .semicolon true],
      .part .declaration (.goal .declaration),
      brokenInterface,
      brokenAssignment]]))

/-! ### Statements -/

/-- Statements in braces. -/
def block : R :=
  statementOf [.breaking true (all [openBrace, .many (.goal .item), lastBrace])]

/-- A choice between two statements. -/
def ifStatement : R :=
  statementOf [.word "if", parens (.goal .sequence), .goal .statement,
    opt (all [.word "else", .goal .statement])]

/-- A choice between several values. -/
def switchStatement : R :=
  statementOf [.word "switch", parens (.goal .sequence), .breaking true (all [openBrace,
    .many (all [any [all [.word "case", .goal .sequence], .word "default"], .mark ":",
      .many (all [.notAhead (any [.word "case", .word "default"]), .goal .item])]),
    lastBrace])]

/-- What a loop starts with. -/
def loopStart : R :=
  any [
    all [.notAhead (any [.word "var", .word "let", .word "const"]), .goal .sequence],
    all [any [.word "var", .word "let", .word "const"], list1 (.mark ",") (all [
      .goal .pattern, opt (.goal .typeAscription),
      opt (all [.mark "=", .goal .expression])])]]

/-- The word between a name and the values that it stands for. -/
def iterationWord : R := any [.word "of", .word "in"]

/-- The head of a loop over the values of something. -/
def iterationHead : R :=
  all [opt (any [.word "var", .word "let", .word "const"]),
    any [all [.goal .pattern, .ahead iterationWord], .goal .chain], iterationWord, .goal .sequence]

/-- A loop. -/
def forStatement : R :=
  statementOf [.word "for", opt (.word "await"),
    .breaking false (all [.mark "(", any [
      all [iterationHead, .mark ")"],
      all [opt loopStart, .mark ";", opt (.goal .sequence), .mark ";", opt (.goal .sequence),
        .mark ")"]]]),
    .goal .statement]

/-- Statements that start with a word of their own. -/
def wordStatement : R :=
  statementOf [any [
    all [.word "while", parens (.goal .sequence), .goal .statement],
    all [.word "do", .goal .statement, .word "while", parens (.goal .sequence),
      opt (.semicolon true)],
    all [.word "try", .goal .block,
      opt (all [.word "catch", opt (parens (all [.goal .pattern, opt (.goal .typeAscription)])),
        .goal .block]),
      opt (all [.word "finally", .goal .block])],
    all [.word "with", parens (.goal .sequence), .goal .statement],
    all [any [.word "break", .word "continue"],
      opt (all [.goesOn true, anyName .identifier]), .semicolon true],
    all [.word "return", opt (all [.goesOn true, .goal .sequence]), .semicolon true],
    all [.word "throw", .goal .sequence, .semicolon true],
    all [.word "debugger", .semicolon true]]]

/-- A statement with a label. -/
def labeledStatement : R := statementOf [valueLabel, .mark ":", .goal .statement]
where
  valueLabel : R := .name .identifier ["case", "default"]

/-- An expression as a statement. -/
def expressionStatement : R :=
  statementOf [
    .notAhead (any (["const", "var", "function", "class", "if", "for", "while", "do", "switch",
      "return", "throw", "try", "with", "debugger", "break", "continue", "enum", "interface",
      "case", "default"].map .word)),
    .goal .sequence,
    .semicolon true]

/-- A declaration that ends behind its name: the word for an export is read as a value. -/
def abandonedExport : R :=
  all [.ahead (all [.word "export", any [.word "interface", .word "type"], anyName .clause,
      .mark ";"]),
    statementOf [.word "export", .skippedTo ";", .mark ";"]]

/-- A word that is a name where the statement ends behind it. -/
def bareWord : R :=
  all [any (["type", "namespace", "module", "declare", "abstract", "async", "let"].map .word),
    .notAhead (.goesOn true)]

/-- A statement. -/
def statement : R :=
  any [
    .goal .exportStatement,
    all [.notAhead bareWord, .goal .declaration],
    importStatement,
    .goal .block,
    ifStatement,
    switchStatement,
    forStatement,
    wordStatement,
    statementOf [.mark ";"],
    abandonedExport,
    labeledStatement,
    expressionStatement]

/-- A statement of a block, or an error in its place. -/
def item : R :=
  any [.goal .statement, .lenient (.goal .statement), .skipped ["\x7d"] (.goal .statement)]

/-- An alias of an object type that is not closed: an error up to the end of the text, which takes
in the declarations after it as members. -/
def unclosedAlias : R :=
  .node .error (all [opt (.word "export"), .word "type", anyName .typeIdentifier,
    opt (.goal .typeParameters), .mark "=", openBrace, .breaking true memberList, .finish])

/-- A statement of a program, or an error in its place. -/
def rootItem : R :=
  any [.goal .statement, .lenient (.goal .statement), unclosedAlias, .skipped [] (.goal .statement)]

end ServiceScaffold.Syntax.Grammar
