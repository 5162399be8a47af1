import DeclarationBundle.Syntax.TypeRules

/-!
# Parameters and members

The rules of what stands between the brackets of a signature, a class, an interface or an object
type. A word such as `readonly` qualifies the member whose name follows it, and is itself the name
of a member where none follows.
-/

namespace DeclarationBundle.Syntax.Grammar

/-- A value given at a declaration. -/
def initializer : Grammar :=
  .seq [markUnless "=" ["=", ">"], .phrase .expression]

def decorator : Grammar :=
  .node "decorator" (.seq [mark "@", .phrase .access])

/-- A word that qualifies the parameter whose name follows it. -/
def parameterModifier : Grammar :=
  let qualifies : Grammar := .ahead (.choice [word "identifier", mark "\x7b", mark "["])
  .choice [
    .node "accessibility modifier"
      (.seq [.choice [keyword "public", keyword "private", keyword "protected"],
      qualifies]),
    .seq [.choice [keyword "override", keyword "readonly"], qualifies]]

def parameter : Grammar :=
  .node "parameter" (.seq
    [.many decorator, .many parameterModifier, .phrase .pattern, .optional (mark "?"),
    .optional typeAnnotation, .optional initializer])

/-- The words that may qualify a member of a type. -/
def typeModifiers : Grammar :=
  .many (.choice [accessibility, modifier "static", modifier "override", modifier "readonly"])

/-- The words that may qualify a method. -/
def methodModifiers : Grammar :=
  .many (.choice [accessibility, modifier "static", modifier "override", modifier "readonly",
    modifier "abstract", modifier "async", modifier "get", modifier "set",
    .seq [mark "*", memberStart]])

/-- The words that may qualify a field. -/
def fieldModifiers : Grammar :=
  .many (.choice [accessibility, modifier "declare", modifier "static", modifier "override",
    modifier "readonly", modifier "abstract", modifier "accessor"])

def methodSignature : Grammar :=
  .node "method signature" (.seq [methodModifiers, .phrase .propertyName, .optional (mark "?"),
    .phrase .signature])

/-- The annotation of an index signature, which may make its property optional or required. -/
def indexAnnotation : Grammar :=
  .choice [
    .node "omitting type annotation" (.seq [mark "-?:", .phrase .type]),
    .node "adding type annotation" (.seq [mark "+?:", .phrase .type]),
    .node "opting type annotation" (.seq [mark "?:", .phrase .type]),
    typeAnnotation]

/-- What a class builds on. -/
def heritage : Grammar :=
  .seq [
    .optional (.node "extends clause" (.seq [keyword "extends", .phrase .access,
      .optional (.phrase .typeArguments)])),
    .optional (.node "implements clause" (.seq [keyword "implements",
      .separated (mark ",") (.phrase .type)]))]

/-- The rules of parameters and members, by phrase. -/
def memberRule : Phrase → Grammar
  | .parameters => .node "parameters" (.seq [mark "(", listed parameter, mark ")"])
  | .pattern =>
    let item : Grammar := .seq [.phrase .pattern, .optional initializer]
    .choice [
      keyword "this",
      .node "rest pattern" (.seq [mark "...", .phrase .pattern]),
      .node "object pattern" (.seq [mark "\x7b",
        sparse (.choice [
          .node "pair pattern" (.seq [.phrase .propertyName, mark ":", item]),
          item]),
        mark "\x7d"]),
      .node "array pattern" (.seq [mark "[", sparse item, mark "]"]),
      identifier]
  | .signature =>
    .seq [.optional (.phrase .typeParameters), .phrase .parameters, .optional returnAnnotation]
  | .propertyName =>
    .choice [
      word "property identifier",
      stringLiteral,
      number,
      .token .privateName,
      .node "computed property name" (.seq [mark "[", .phrase .expression, mark "]"])]
  | .indexSignature =>
    .node "index signature" (.seq [
      .many (.choice [modifier "static",
        .seq [.optional (.choice [mark "+", mark "-"]), keyword "readonly", .ahead (mark "[")]]),
      mark "[",
      .choice [
        .seq [word "identifier", mark ":", .phrase .type],
        .node "mapped type clause" (.seq [typeName, keyword "in", .phrase .type,
          .optional (.seq [keyword "as", .phrase .type])])],
      mark "]",
      .optional indexAnnotation])
  | .typeMember =>
    .choice [
      .phrase .indexSignature,
      .node "construct signature"
        (.seq [.optional (keyword "abstract"), keyword "new", .phrase .signature]),
      .node "call signature" (.phrase .signature),
      methodSignature,
      .node "property signature" (.seq [typeModifiers, .phrase .propertyName, .optional (mark "?"),
        .optional typeAnnotation])]
  | .classMember =>
    .choice [
      mark ";",
      decorator,
      .node "class static block" (.seq [keyword "static", .phrase .block]),
      .seq [
        .node "method definition"
          (.seq [methodModifiers, .phrase .propertyName, .optional (mark "?"),
          .phrase .signature, .phrase .block]),
        .optional (semicolon false)],
      .seq [
        .choice [
          .phrase .indexSignature,
          methodSignature,
          .node "field definition" (.seq [fieldModifiers, .phrase .propertyName,
            .optional (.choice [mark "?", mark "!"]), .optional typeAnnotation,
            .optional initializer])],
        .choice [semicolon false, mark ","]]]
  | .classBody =>
    .node "class body" (.seq [mark "\x7b", .many (.phrase .classMember), mark "\x7d"])
  | _ => .choice []

end DeclarationBundle.Syntax.Grammar
