import ServiceScaffold.Syntax.Grammar.Goal

/-!
# Rules of expressions

Literals and the operators in front of them have nodes of their own kinds.  Operators between
operands are read from left to right without regard to their rank: only the operand on the left end
and the kind of the last operator matter.
-/

namespace ServiceScaffold.Syntax.Grammar

open Rule

/-- Words that are no names in expressions. -/
def expressionWords : List String :=
  ["function", "class", "typeof", "void", "delete", "this", "super", "true", "false", "null",
    "import", "const", "var", "if", "for", "while", "do", "switch", "case", "break", "continue",
    "return", "throw", "try", "catch", "finally", "with", "debugger", "else", "enum", "interface",
    "extends", "in", "instanceof", "default"]

/-- The name of a value. -/
def valueName : R := .name .identifier expressionWords

/-- An expression of another kind. -/
def other (parts : List R) : R := .node .expression (all parts)

/-- The expression read last continues. -/
def continued (parts : List R) : R := .wrap .expression (all parts)

/-! ### Bindings -/

/-- A value in place of an absent one. -/
def defaultValue : R := opt (all [.mark "=", .goal .expression])

/-- Values of which some may be left out, with commas between them. -/
def sparseList (r : R) : R :=
  all [.many (.mark ","),
    opt (all [r, .many (all [.many1 (.mark ","), r]), .many (.mark ",")])]

/-- Part of a pattern for an object. -/
def fieldPattern : R :=
  any [
    all [.mark "...", .goal .pattern],
    all [.goal .propertyName, .mark ":", .goal .pattern, defaultValue],
    all [valueName, defaultValue]]

/-- What a value is bound to. -/
def pattern : R :=
  any [
    valueName,
    .node .clause (braces (opt (list (.mark ",") fieldPattern))),
    .node .clause (brackets (sparseList (all [opt (.mark "..."), .goal .pattern,
      defaultValue])))]

/-- A parameter of a function. -/
def parameter : R :=
  .node .clause (all [
    .many (.goal .decorator),
    modifiers ["public", "private", "protected", "override", "readonly"],
    opt (.mark "..."),
    any [.goal .pattern, .word "this"],
    opt (.mark "?"),
    opt (.goal .typeAscription),
    defaultValue])

/-- The parameters of a function. -/
def parameters : R :=
  .node .clause (.breaking false (all [.mark "(", opt (list (.mark ",") parameter), .mark ")"]))

/-! ### Operands -/

/-- The name of a property. -/
def propertyName : R :=
  any [anyName .propertyIdentifier, privateName, string, number,
    .node .computedName (brackets (.goal .expression))]

/-- Arguments of a call. -/
def arguments : R :=
  .node .clause (parens (opt (list (.mark ",") (all [opt (.mark "..."), .goal .expression]))))

/-- What stands in brackets in an expression. -/
def parenthesized : R :=
  .node .parenthesizedExpression (parens (all [.goal .sequence, opt (.goal .typeAscription)]))

/-- A list of values. -/
def arrayLiteral : R :=
  other [brackets (sparseList (all [opt (.mark "..."), .goal .expression]))]

/-- A method of an object. -/
def objectMethod : R :=
  all [modifiers ["async", "get", "set"], opt (.mark "*"), .goal .propertyName,
    opt (.goal .typeParameters), .goal .parameters, opt (.goal .returnAscription),
    .goal .block]

/-- A field of an object. -/
def objectField : R :=
  .node .clause (any [
    all [.mark "...", .goal .expression],
    objectMethod,
    all [.goal .propertyName, .mark ":", .goal .expression],
    all [valueName, defaultValue]])

/-- An object with its fields. -/
def objectLiteral : R := other [braces (opt (list (.mark ",") objectField))]

/-- A function as a value. -/
def functionExpression : R :=
  other [opt (all [.word "async", .goesOn true]), .word "function", opt (.mark "*"),
    opt (anyName .identifier), opt (.goal .typeParameters), .goal .parameters,
    opt (.goal .returnAscription), .goal .block]

/-- A new object. -/
def newExpression : R :=
  other [.word "new", any [
    all [.mark ".", .word "target"],
    all [.goal .primary,
      .many (any [continued [.mark ".", any [anyName .propertyIdentifier, privateName]],
        continued [brackets (.goal .sequence)]]),
      opt (.goal .typeArguments), opt (.goal .arguments)]]]

/-- An operand without operators.  Before a semicolon it may be absent. -/
def primary : R :=
  any [
    functionExpression,
    other [.many (.goal .decorator), .ahead (.word "class"), .goal .classDeclaration],
    newExpression,
    .node .trueLiteral (.word "true"),
    .node .falseLiteral (.word "false"),
    other [any [.word "this", .word "super", .word "null"]],
    other [.word "import", any [.goal .arguments, all [.mark ".", .word "meta"]]],
    valueName,
    number,
    string,
    template (.goal .sequence),
    .regex,
    parenthesized,
    arrayLiteral,
    objectLiteral,
    privateName,
    all [.ahead (.mark ";"), .missing .identifier]]

/-- What may follow an operand but starts none. -/
def operandEnd : R :=
  any [.semicolon true, .mark ",", .mark ")", .mark "]", .mark ":", closeBrace]

/-- Members, calls and marks after an operand. -/
def chain : R :=
  all [.goal .primary, .many (all [.goesOn true, any [
    continued [.mark ".", any [anyName .propertyIdentifier, privateName]],
    continued [.mark "?.", any [anyName .propertyIdentifier, privateName,
      brackets (.goal .sequence), all [opt (.goal .typeArguments), .goal .arguments]]],
    continued [brackets (.goal .sequence)],
    continued [.goal .arguments],
    continued [template (.goal .sequence)],
    continued [.goal .typeArguments, any [.goal .arguments, template (.goal .sequence),
      .ahead operandEnd]],
    continued [.mark "!"],
    continued [any [.mark "++", .mark "--"]]]])]

/-- The operator of a signed or negated operand. -/
def unaryOperator : R :=
  .part .operator (any [.mark "-", .mark "+", .mark "!", .mark "~", .word "typeof", .word "void",
    .word "delete"])

/-- An operand with the operators before it. -/
def operand : R :=
  any [
    .node .unaryExpression (all [unaryOperator, .part .argument (.goal .operand)]),
    other [any [.mark "++", .mark "--"], .goal .operand],
    other [.word "await", .goesOn true, .goal .operand],
    other [.mark "<", .breaking false (all [.goal .type, .mark ">"]), .notAhead (.mark ";"),
      .goal .operand],
    .goal .chain]

/-! ### Expressions -/

/-- A function given by its parameters and its value. -/
def arrowFunction : R :=
  other [
    opt (all [.word "async", .goesOn true]),
    any [
      valueName,
      all [opt (.goal .typeParameters), .goal .parameters, opt (.goal .returnAscription)]],
    .mark "=>",
    any [.goal .block, .goal .expression]]

/-- A value that a function hands out. -/
def yieldExpression : R :=
  other [.word "yield", .goesOn true, opt (.mark "*"), .goal .expression]

/-- The operator between two operands.  Angle brackets are read one by one, since in a type each is
a mark of its own. -/
def binaryOperator : R :=
  any [
    all [.mark "<", .mark "<"],
    any (["+", "-", "*", "/", "%", "**", "<", "<=", "==", "===", "!=", "!==", "&&", "||", "??", "&",
      "|", "^"].map .mark),
    all [.many1 (.mark ">"), opt (any [.mark "=", .mark "=="])],
    .word "in",
    .word "instanceof"]

/-- The operator that gives a value to something. -/
def assignmentOperator : R :=
  any (["=", "+=", "-=", "*=", "/=", "%=", "**=", "<<=", "&&=", "||=", "??=", "&=", "|=",
    "^="].map .mark)

/-- Operators and operands after the first operand. -/
def operations : R :=
  .many (all [.goesOn true, any [
    .wrap .asExpression (all [.word "as", any [.node .typeNode (.word "const"), .goal .type]]),
    .wrap .satisfiesExpression (all [.word "satisfies", .goal .type]),
    continued [assignmentOperator, .goal .expression],
    continued [binaryOperator, any [arrowFunction, .goal .operand]],
    continued [.mark "?", any [choiceAfter (.goal .expression), choiceAfter (.goal .operand)]]]])
where
  /-- The two values of a choice.  What looks like a function with a type of its result may be a
  value in brackets before the colon. -/
  choiceAfter (yes : R) : R := all [.breaking false (all [yes, .mark ":"]), .goal .expression]

/-- An expression without commas. -/
def expression : R :=
  any [arrowFunction, yieldExpression, all [.goal .operand, operations]]

/-- Expressions with commas between them. -/
def sequence : R :=
  all [.goal .expression, opt (continued [.many1 (all [.mark ",", .goal .expression])])]

end ServiceScaffold.Syntax.Grammar
