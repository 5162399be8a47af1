import DeclarationBundle.Syntax.Phrase

/-!
# Types

The rules of types. A conditional type binds loosest, then unions, intersections, prefixed types,
arrays and look-ups. In a type the words `any`, `string` and their like are keywords, and every
other word is a name.
-/

namespace DeclarationBundle.Syntax.Grammar

/-- A bracket that goes on with the type before it, unless the line may end there. -/
def openingBracket : Grammar :=
  .seq [.unless (.lineEnd false false), mark "["]

def predefinedType : Grammar :=
  .node "predefined type"
    (.choice [keyword "any", keyword "number", keyword "boolean", keyword "string",
    keyword "symbol", keyword "void", keyword "unknown", keyword "never", keyword "object",
    .seq [keyword "unique", keyword "symbol"]])

def literalType : Grammar :=
  .node "literal type" (.choice [stringLiteral, number, .seq [mark "-", number], keyword "true",
    keyword "false", keyword "null", keyword "undefined"])

/-- A call of `import`, whose argument names a module. -/
def importCall : Grammar :=
  .node "call expression" (.seq [keyword "import", .phrase .arguments])

def typeQuery : Grammar :=
  .node "type query" (.seq [keyword "typeof",
    .chain (.choice [importCall, keyword "this", identifier]) [
      ("member expression", .seq [.choice [markUnless "." ["."], mark "?."],
        .choice [word "property identifier", .token .privateName]])],
    .optional (.phrase .typeArguments)])

/-- A member of a tuple, named or not. -/
def tupleMember : Grammar :=
  .choice [
    .node "tuple parameter" (.seq [.optional (mark "..."), word "identifier", .optional (mark "?"),
      mark ":", .phrase .type]),
    .node "rest type" (.seq [mark "...", .phrase .type]),
    .chain (.phrase .type) [("optional type", mark "?")]]

/-- A claim about the type of a name, which a function's result may make. -/
def typePredicate : Grammar :=
  .node "type predicate"
    (.seq [.choice [keyword "this", word "identifier"], keyword "is", .phrase .type])

def typeAnnotation : Grammar :=
  .node "type annotation" (.seq [mark ":", .phrase .type])

def returnAnnotation : Grammar :=
  .node "type annotation" (.seq [mark ":", .phrase .returnType])

def typeParameter : Grammar :=
  .node "type parameter" (.seq [
    .many (.seq [.choice [keyword "const", keyword "in", keyword "out"],
      .ahead (word "type identifier")]),
    typeName,
    .optional (.node "constraint" (.seq [keyword "extends", .phrase .type])),
    .optional (.node "default type" (.seq [markUnless "=" ["=", ">"], .phrase .type]))])

/-- What separates the members of an object type. -/
def memberEnd : Grammar :=
  .choice [mark ",", .lineEnd false false, mark ";"]

/-- The rules of types, by phrase. -/
def typeRule : Phrase → Grammar
  | .type =>
    .chain (.phrase .unionType)
      [("conditional type", .seq [keyword "extends", .phrase .unionType, mark "?",
      .phrase .type, mark ":", .phrase .type])]
  | .unionType =>
    let tail : Grammar := .seq [mark "|", .phrase .intersectionType]
    .chain (.choice [.node "union type" tail, .phrase .intersectionType]) [("union type", tail)]
  | .intersectionType =>
    let tail : Grammar := .seq [mark "&", .phrase .typeOperand]
    .chain (.choice [.node "intersection type" tail, .phrase .typeOperand])
      [("intersection type", tail)]
  | .typeOperand =>
    .choice [
      .node "function type" (.seq [.optional (.phrase .typeParameters), .closesBefore ["=>"],
        .phrase .parameters, mark "=>", .phrase .returnType]),
      .node "constructor type" (.seq [.optional (keyword "abstract"), keyword "new",
        .optional (.phrase .typeParameters), .phrase .parameters, mark "=>", .phrase .type]),
      .node "index type query" (.seq [keyword "keyof", .phrase .typeOperand]),
      .node "readonly type" (.seq [keyword "readonly", .phrase .typeOperand]),
      .node "infer type" (.seq [keyword "infer", typeName,
        .optional (.seq [keyword "extends", .phrase .unionType])]),
      .phrase .postfixType]
  | .postfixType =>
    .chain (.phrase .primaryType) [
      ("array type", .seq [openingBracket, mark "]"]),
      ("lookup type", .seq [openingBracket, .phrase .type, mark "]"])]
  | .primaryType =>
    .choice [
      literalType,
      predefinedType,
      .node "parenthesized type" (.seq [mark "(", .phrase .type, mark ")"]),
      .phrase .objectType,
      .node "tuple type" (.seq [mark "[", listed tupleMember, mark "]"]),
      .phrase .templateType,
      typeQuery,
      keyword "this",
      .phrase .typeReference,
      keyword "const"]
  | .typeReference =>
    .chain (.choice [importCall, typeName]) [
      ("nested type identifier", .seq [markUnless "." ["."], word "type identifier"]),
      ("generic type", .phrase .typeArguments)]
  | .returnType =>
    .choice [
      .node "asserts" (.seq [keyword "asserts", .unless (.lineEnd false false),
        .choice [typePredicate, keyword "this", identifier]]),
      typePredicate,
      .phrase .type]
  | .typeParameters =>
    .node "type parameters"
      (.seq [mark "<", .separated (mark ",") typeParameter, .optional (mark ","),
      mark ">"])
  | .typeArguments =>
    .node "type arguments"
      (.seq [mark "<", .separated (mark ",") (.phrase .type), .optional (mark ","),
      mark ">"])
  | .objectType =>
    .node "object type" (.seq [mark "\x7b", .optional (.choice [mark ",", mark ";"]),
      .optional (.seq [.separated memberEnd (.phrase .typeMember), .optional memberEnd]),
      mark "\x7d"])
  | .templateType =>
    .node "template literal type" (.seq [mark "\x60",
      .many (.choice [.glued .templateText, .glued .escape,
        .node "template type" (.seq [.glued (.mark "$\x7b" []), .phrase .type, mark "\x7d"])]),
      .glued (.mark "\x60" [])])
  | _ => .choice []

end DeclarationBundle.Syntax.Grammar
