import ServiceScaffold.Syntax.Grammar.Goal

/-!
# Rules of types

A type is one node around all of its text.
-/

namespace ServiceScaffold.Syntax.Grammar

open Rule

/-- Words that start a type of their own and are no names of types. -/
def typeWords : List String :=
  ["keyof", "typeof", "readonly", "unique", "infer", "abstract", "new", "import"]

/-- What stands between the members of a union or an intersection. -/
def unionMark : R := any [.mark "|", .mark "&", .mark "||", .mark "&&"]

/-- The type of a function. -/
def functionType : R :=
  all [.ahead (any [.mark "<", .mark "("]), opt (.goal .typeParameters), .goal .parameters,
    .mark "=>", .goal .returnType]

/-- The type of a constructor. -/
def constructorType : R :=
  all [opt (.word "abstract"), .word "new", opt (.goal .typeParameters), .goal .parameters,
    .mark "=>", .goal .type]

/-- A member of a union. -/
def unionMember : R := any [functionType, constructorType, .goal .typeOperand]

/-- A type that depends on another one. -/
def condition : R :=
  all [.goesOn false, .word "extends", .goal .type, .mark "?", .goal .type, .mark ":", .goal .type]

/-- A type. -/
def type : R :=
  .node .typeNode (all [.many unionMark, unionMember, .many (all [.many1 unionMark, unionMember]),
    opt condition])

/-- A variable that a condition binds. -/
def inferred : R :=
  all [.word "infer", anyName .typeIdentifier, opt (all [.word "extends", .goal .type])]

/-- The type of a value. -/
def queriedType : R :=
  all [.word "typeof", any [
    all [.word "import", parens string, .many (all [.mark ".", anyName .identifier])],
    all [.name .identifier ["import"],
      .many (all [.mark ".", any [anyName .identifier, privateName]])]],
    opt (.goal .typeArguments)]

/-- A type without marks between its parts. -/
def typeOperand : R :=
  all [
    any [
      all [.word "keyof", .goal .typeOperand],
      all [.word "readonly", .goal .typeOperand],
      all [.word "unique", .word "symbol"],
      all [.mark "?", .goal .typePrimary],
      inferred,
      queriedType,
      .goal .typePrimary],
    .many (all [.goesOn false, brackets (opt (.goal .type))])]

/-- A member of a tuple. -/
def tupleMember : R :=
  any [
    all [opt (.mark "..."), anyName .identifier, opt (.mark "?"), .goal .typeAscription],
    all [.mark "...", .goal .type],
    all [.goal .type, opt (.mark "?")]]

/-- A type in one piece.  Before some marks it may be absent. -/
def typePrimary : R :=
  any [
    parens (.goal .type),
    all [.word "import", parens string, .many (all [.mark ".", anyName .identifier])],
    all [dottedName (.name .typeIdentifier typeWords), opt (.goal .typeArguments)],
    string,
    signedNumber,
    template (.goal .type),
    .goal .objectType,
    brackets (opt (list (.mark ",") tupleMember)),
    .mark "*",
    all [.ahead (any [.mark ";", .mark ",", .mark ")", .mark ">", .mark "=", closeBrace]),
      .missing .typeIdentifier]]

/-- Types in angle brackets. -/
def typeArguments : R := angles (list (.mark ",") (.goal .type))

/-- Parameters in angle brackets. -/
def typeParameters : R :=
  angles (list (.mark ",") (all [opt (all [.word "const", .ahead (anyName .clause)]),
    anyName .typeIdentifier, opt (all [.word "extends", .goal .type]),
    opt (all [.mark "=", .goal .type])]))

/-- A type after a colon. -/
def typeAscription : R := .node .typeAscription (all [.mark ":", .goal .type])

/-- What a function says of the type of a value. -/
def predicate : R :=
  any [
    all [.word "asserts", anyName .identifier, opt (all [.goesOn false, .word "is", .goal .type])],
    all [.name .identifier typeWords, .goesOn false, .word "is", .goal .type]]

/-- The type of what a function returns. -/
def returnType : R := any [predicate, .goal .type]

/-- The type of what a function returns, after a colon. -/
def returnAscription : R := .node .typeAscription (all [.mark ":", .goal .returnType])

/-! ### Object types -/

/-- Words that may stand before the name of a member of an object type. -/
def memberModifiers : R :=
  modifiers ["public", "private", "protected", "declare", "static", "override", "readonly"]

/-- The name of a member of an object type. -/
def memberName : R := all [.notAhead (.word "abstract"), .goal .propertyName]

/-- A member that makes objects. -/
def constructSignature : R :=
  .node .member (all [opt (.word "abstract"), .word "new", opt (.goal .typeParameters),
    .goal .parameters, opt (.goal .typeAscription)])

/-- A member that is called. -/
def callSignature : R :=
  .node .member (all [opt (.goal .typeParameters), .goal .parameters,
    opt (.goal .returnAscription)])

/-- A member for all keys of a type. -/
def indexSignature : R :=
  .node .member (all [
    opt (all [opt (any [.mark "-", .mark "+"]), .word "readonly"]),
    brackets (any [
      all [anyName .identifier, .mark ":", .goal .type],
      all [anyName .typeIdentifier, .word "in", .goal .type,
        opt (all [.word "as", .goal .type])]]),
    opt (any [all [any [.mark "-", .mark "+"], .mark "?"], .mark "?"]),
    .goal .typeAscription])

/-- A member that is a method. -/
def methodSignature : R :=
  .node .member (all [memberModifiers, modifiers ["async", "get", "set"], opt (.mark "*"),
    memberName, opt (.mark "?"), opt (.goal .typeParameters), .goal .parameters,
    opt (.goal .returnAscription)])

/-- A member that is a property. -/
def propertySignature : R :=
  .node .propertySignature (all [memberModifiers, .part .name memberName, opt (.mark "?"),
    opt (.part .type (.goal .typeAscription))])

/-- A member of an object type. -/
def typeMember : R :=
  any [.goal .exportStatement, constructSignature, callSignature, indexSignature, methodSignature,
    propertySignature]

/-- What stands between members. -/
def memberEnd : R := any [.mark ",", .semicolon false]

/-- Members with what stands between them. -/
def memberList : R :=
  opt (all [opt (any [.mark ",", .mark ";"]), list1 memberEnd (.goal .typeMember), opt memberEnd])

/-- An object type. -/
def objectType : R :=
  .node .typeNode (.breaking true (all [openBrace, memberList,
    any [closeBrace, all [.skippedTo "\x7d", closeBrace]]]))

/-- The body of an interface. -/
def interfaceBody : R :=
  .node .interfaceBody (.breaking true (all [openBrace, memberList,
    any [lastBrace, all [.skippedTo "\x7d", closeBrace]]]))

end ServiceScaffold.Syntax.Grammar
