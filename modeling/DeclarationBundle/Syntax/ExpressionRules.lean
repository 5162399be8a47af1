import DeclarationBundle.Syntax.MemberRules

/-!
# Expressions

The rules of expressions. Binary operators come in levels, each of which binds tighter than the one
before it; prefixes, postfixes and accesses bind tighter still.
-/

namespace DeclarationBundle.Syntax.Grammar

/-- The operators that begin with a shorter one. -/
def longOperators : List String :=
  ["**", "&&", "||", "??", "<<", ">>", ">>>"]

/-- An operator, where neither a longer one nor an assignment begins. -/
def operator (text : String) : Grammar :=
  markUnless text (["=", "*", "&", "|", "?", "<", ">"].filter fun more =>
    more == "=" || longOperators.contains (text ++ more))

/-- The number of levels of binary operators. -/
def binaryLevels : Nat := 12

/-- The operators of a level. -/
def binaryOperators : Nat → List Grammar
  | 0 => [operator "??"]
  | 1 => [operator "||"]
  | 2 => [operator "&&"]
  | 3 => [operator "|"]
  | 4 => [operator "^"]
  | 5 => [operator "&"]
  | 6 => [mark "===", mark "!==", mark "==", mark "!="]
  | 7 => [mark "<=", mark ">=", operator "<", operator ">", keyword "instanceof", keyword "in"]
  | 8 => [operator ">>>", operator ">>", operator "<<"]
  | 9 => [markUnless "+" ["+", "="], markUnless "-" ["-", "="]]
  | 10 => [operator "*", markUnless "/" ["="], operator "%"]
  | 11 => [operator "**"]
  | _ => []

/-- The operators that assign. -/
def assignment : Grammar :=
  .choice [markUnless "=" ["=", ">"], mark "+=", mark "-=", mark "*=", mark "/=", mark "%=",
    mark "&=", mark "|=", mark "^=", mark "<<=", mark ">>=", mark ">>>=", mark "**=", mark "&&=",
    mark "||=", mark "??="]

/-- A statement of the type of a value, on the line of the value. -/
def typeStatement (text : String) : Grammar :=
  .seq [.unless (.lineEnd true false), keyword text, .phrase .type]

/-- An item of a call or an array. -/
def spreadable : Grammar :=
  .choice [.node "spread element" (.seq [mark "...", .phrase .expression]), .phrase .expression]

/-- The function a word declares as a value. -/
def functionExpression : Grammar :=
  .node "function expression"
    (.seq [.optional (leadingWord "async"), keyword "function", .optional (mark "*"),
    .optional identifier, .phrase .signature, .phrase .block])

def classExpression : Grammar :=
  .node "class" (.seq [.many decorator, keyword "class", .optional typeName,
    .optional (.phrase .typeParameters), heritage, .phrase .classBody])

/-- The rules of expressions, by phrase. -/
def expressionRule : Phrase → Grammar
  | .expressions =>
    .chain (.phrase .expression) [("sequence expression", .seq [mark ",", .phrase .expression])]
  | .expression =>
    .choice [
      .node "arrow function" (.seq [
        .optional (.seq [leadingWord "async", .ahead (.choice [identifier, mark "(", mark "<"])]),
        .choice [
          .seq [identifier, .ahead (mark "=>")],
          .seq [.optional (.phrase .typeParameters), .closesBefore ["=>", ":"], .phrase .parameters,
            .optional returnAnnotation]],
        mark "=>",
        .choice [.phrase .block, .phrase .expression]]),
      .node "yield expression"
        (.seq [leadingWord "yield", .optional (mark "*"), .phrase .expression]),
      .chain (.phrase .ternary) [("assignment expression", .seq [assignment, .phrase .expression])]]
  | .ternary =>
    .chain (.phrase (.binary 0))
      [("ternary expression", .seq [markUnless "?" [".", "?"], .phrase .expression,
      mark ":", .phrase .expression])]
  | .binary level =>
    if level < binaryLevels then
      let next : Grammar := .phrase (.binary (level + 1))
      .chain next ([("binary expression", .seq [.choice (binaryOperators level), next])] ++
        if level = 7 then
          [("as expression", typeStatement "as"),
            ("satisfies expression", typeStatement "satisfies")]
        else [])
    else .phrase .unary
  | .unary =>
    .choice [
      .node "unary expression" (.seq [
        .choice [mark "!", mark "~", markUnless "-" ["-"], markUnless "+" ["+"], keyword "typeof",
          keyword "void", keyword "delete"],
        .phrase .unary]),
      .node "update expression" (.seq [.choice [mark "++", mark "--"], .phrase .unary]),
      .node "await expression" (.seq [leadingWord "await", .phrase .unary]),
      .node "type assertion" (.seq [.phrase .typeArguments, .phrase .unary]),
      .phrase .suffixed]
  | .suffixed =>
    .chain (.phrase .access) [("update expression", .seq [.unless (.lineEnd true false),
      .choice [mark "++", mark "--"]])]
  | .access =>
    .chain (.phrase .primary) [
      ("member expression", .seq [markUnless "." ["."],
        .choice [word "property identifier", .token .privateName]]),
      ("member expression", .seq [mark "?.",
        .choice [word "property identifier", .token .privateName, .phrase .arguments,
          .seq [mark "[", .phrase .expressions, mark "]"]]]),
      ("subscript expression", .seq [mark "[", .phrase .expressions, mark "]"]),
      ("call expression", .phrase .arguments),
      ("call expression", .seq [.phrase .typeArguments, .phrase .arguments]),
      ("call expression", .phrase .template),
      ("non-null expression", .seq [.unless (.lineEnd true false), markUnless "!" ["="]])]
  | .primary =>
    .choice [
      stringLiteral,
      .phrase .internalModule,
      functionExpression,
      identifier,
      number,
      .phrase .template,
      .node "parenthesized expression" (.seq [mark "(", .phrase .expressions, mark ")"]),
      .phrase .objectLiteral,
      .node "array" (.seq [mark "[", sparse spreadable, mark "]"]),
      keyword "this",
      keyword "super",
      keyword "true",
      keyword "false",
      keyword "null",
      .seq [keyword "import", .ahead (.choice [mark "(", mark "."])],
      .node "new expression" (.seq [keyword "new",
        .chain (.phrase .primary) [("member expression", .seq [markUnless "." ["."],
          word "property identifier"])],
        .optional (.phrase .typeArguments), .optional (.phrase .arguments)]),
      classExpression,
      .token .regularExpression]
  | .arguments => .node "arguments" (.seq [mark "(", sparse spreadable, mark ")"])
  | .template =>
    .node "template string" (.seq [mark "\x60",
      .many (.choice [.glued .templateText, .glued .escape,
        .node "template substitution" (.seq [.glued (.mark "$\x7b" []), .phrase .expressions,
          mark "\x7d"])]),
      .glued (.mark "\x60" [])])
  | .objectLiteral =>
    .node "object" (.seq [mark "\x7b",
      sparse (.choice [
        .node "pair" (.seq [.phrase .propertyName, mark ":", .phrase .expression]),
        .node "method definition" (.seq [methodModifiers, .phrase .propertyName, .phrase .signature,
          .phrase .block]),
        .node "spread element" (.seq [mark "...", .phrase .expression]),
        .seq [identifier, .optional initializer]]),
      mark "\x7d"])
  | _ => .choice []

end DeclarationBundle.Syntax.Grammar
