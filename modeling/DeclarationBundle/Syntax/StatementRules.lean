import DeclarationBundle.Syntax.ExpressionRules

/-!
# Statements

The rules of statements and declarations. The words that begin a declaration are names as well, so
that a line such as `declare` alone is an expression.
-/

namespace DeclarationBundle.Syntax.Grammar

/-- A name with dots in it. -/
def nestedName : Grammar :=
  .chain identifier [("nested identifier", .seq [markUnless "." ["."], word "property identifier"])]

/-- The module that a statement takes names from. -/
def fromClause : Grammar :=
  .seq [keyword "from", .source stringLiteral]

/-- What a statement says about the module it names. -/
def importAttribute : Grammar :=
  .node "import attribute"
    (.seq [.unless (.lineEnd false false), .choice [keyword "with", keyword "assert"],
    .phrase .objectLiteral])

/-- What may name a thing in the braces of an import or export. -/
def moduleName : Grammar :=
  .choice [word "identifier", stringLiteral]

/-- One name in the braces of an import or export. -/
def specifier (construct : String) : Grammar :=
  let name : Grammar := .choice [
    .seq [moduleName, keyword "as", moduleName, .ahead (.choice [mark ",", mark "\x7d"])],
    .seq [moduleName, .ahead (.choice [mark ",", mark "\x7d"])]]
  .node construct (.choice [.seq [.choice [keyword "type", keyword "typeof"], name], name])

def exportClause : Grammar :=
  .node "export clause" (.seq [mark "\x7b", listed (specifier "export specifier"), mark "\x7d"])

def namespaceImport : Grammar :=
  .node "namespace import" (.seq [mark "*", keyword "as", word "identifier"])

def namedImports : Grammar :=
  .node "named imports" (.seq [mark "\x7b", listed (specifier "import specifier"), mark "\x7d"])

def importClause : Grammar :=
  .node "import clause" (.choice [
    namespaceImport,
    namedImports,
    .seq [word "identifier", .optional (.seq [mark ",", .choice [namespaceImport, namedImports]])]])

def importRequire : Grammar :=
  .node "import require" (.seq [identifier, markUnless "=" ["=", ">"], keyword "require", mark "(",
    .source stringLiteral, mark ")"])

/-- What an import statement imports, and from where. -/
def importBody : Grammar :=
  .choice [.seq [importClause, fromClause], importRequire, .source stringLiteral]

/-- What follows the word `export`. -/
def exportBody (lenient : Bool) : Grammar :=
  let fromModule : Grammar := .seq [fromClause, .optional importAttribute, semicolon lenient]
  let everything : Grammar := .choice [
    .seq [mark "*", fromModule],
    .seq [.node "namespace export" (.seq [mark "*", keyword "as", moduleName]), fromModule]]
  .choice ([
    everything,
    .seq [exportClause, fromModule],
    .seq [exportClause, semicolon lenient],
    .seq [keyword "type", exportClause, .choice [fromModule, semicolon lenient]],
    .seq [markUnless "=" ["=", ">"], .phrase .expression, semicolon lenient],
    .seq [keyword "as", keyword "namespace", identifier, semicolon lenient],
    .seq [keyword "default", .choice [.phrase (.declaration lenient),
      .seq [.phrase .expression, semicolon lenient]]],
    .phrase (.ambient lenient),
    .phrase (.declaration lenient)] ++
    if lenient then [
      .seq [.node "unfit" (keyword "import"), .phrase (.declaration lenient)],
      .seq [.node "unfit" (keyword "type"), everything]]
    else [])

def enumBody : Grammar :=
  .node "enum body" (.seq [mark "\x7b",
    listed (.choice [
      .node "enum assignment" (.seq [.phrase .propertyName, initializer]),
      .phrase .propertyName]),
    mark "\x7d"])

def declarator : Grammar :=
  .node "variable declarator"
    (.seq [.phrase .pattern, .optional (mark "!"), .optional typeAnnotation,
    .optional initializer])

/-- The head of a function, up to its signature. -/
def functionHead : Grammar :=
  .seq [.optional (leadingWord "async"), keyword "function", .optional (mark "*")]

/-- The rest of a class after its name. -/
def classRest : Grammar :=
  .seq [.optional (.phrase .typeParameters), heritage, .phrase .classBody]

/-- The declarations other than ambient ones and internal modules, which may also stand
elsewhere. -/
def plainDeclaration (lenient : Bool) : Grammar :=
  .choice [
    .node "enum declaration" (.seq [.optional (keyword "const"), keyword "enum", word "identifier",
      enumBody]),
    .node "lexical declaration" (.seq [.choice [leadingWord "let", keyword "const"],
      .separated (mark ",") declarator, semicolon lenient]),
    .node "variable declaration" (.seq [keyword "var", .separated (mark ",") declarator,
      semicolon lenient]),
    .node "function declaration"
      (.seq [functionHead, identifier, .phrase .signature, .phrase .block]),
    .node "function signature" (.seq [functionHead, .optional identifier, .phrase .signature,
      signatureEnd lenient]),
    .node "class declaration" (.seq [.many decorator, keyword "class", typeName, classRest]),
    .node "abstract class declaration"
      (.seq [.many decorator, keyword "abstract", keyword "class", typeName,
      classRest]),
    .node "interface declaration"
      (.seq [keyword "interface", typeName, .optional (.phrase .typeParameters),
      .optional (.node "extends type clause" (.seq [keyword "extends",
        .separated (mark ",") (.phrase .typeReference)])),
      .phrase .objectType]),
    .node "type alias declaration"
      (.seq [leadingWord "type", typeName, .optional (.phrase .typeParameters),
      mark "=", .phrase .type, semicolon lenient]),
    .node "module" (.seq [leadingWord "module", .choice [stringLiteral, nestedName],
      .optional (.phrase .block)])]

/-- What follows the word `declare`. -/
def ambientBody (lenient : Bool) : Grammar :=
  .choice [
    .phrase (.declaration lenient),
    .seq [keyword "global", .phrase .block]]

/-- A body of one statement. -/
def parenthesized : Grammar :=
  .node "parenthesized expression" (.seq [mark "(", .phrase .expressions, mark ")"])

/-- The statements that direct what is executed. -/
def controlStatement : Grammar :=
  .choice [
    .node "if statement" (.seq [keyword "if", parenthesized, .phrase .item,
      .optional (.seq [keyword "else", .phrase .item])]),
    .node "for statement" (.seq [keyword "for", .optional (keyword "await"), mark "(",
      .optional (.choice [keyword "let", keyword "const", keyword "var"]),
      .choice [
        .seq [.phrase .pattern, .choice [keyword "of", keyword "in"], .phrase .expressions],
        .seq [
          .optional (.choice [.separated (mark ",") declarator, .phrase .expressions]), mark ";",
          .optional (.phrase .expressions), mark ";", .optional (.phrase .expressions)]],
      mark ")", .phrase .item]),
    .node "while statement" (.seq [keyword "while", parenthesized, .phrase .item]),
    .node "do statement" (.seq [keyword "do", .phrase .item, keyword "while", parenthesized,
      .optional (semicolon false)]),
    .node "try statement" (.seq [keyword "try", .phrase .block,
      .optional (.seq [keyword "catch", .optional (.seq [mark "(", .phrase .pattern,
        .optional typeAnnotation, mark ")"]), .phrase .block]),
      .optional (.seq [keyword "finally", .phrase .block])]),
    .node "with statement" (.seq [keyword "with", parenthesized, .phrase .item]),
    .node "break statement" (.seq [.choice [keyword "break", keyword "continue"],
      .optional (.seq [.unless (.lineEnd false false), identifier]), semicolon false]),
    .node "debugger statement" (.seq [keyword "debugger", semicolon false]),
    .node "return statement" (.seq [keyword "return",
      .optional (.seq [.unless (.lineEnd false false), .phrase .expressions]), semicolon false]),
    .node "throw statement" (.seq [keyword "throw", .phrase .expressions, semicolon false]),
    .node "switch statement" (.seq [keyword "switch", parenthesized, mark "\x7b",
      .many (.choice [
        .seq [keyword "case", .phrase .expressions, mark ":"],
        .seq [keyword "default", mark ":"],
        .phrase .item]),
      mark "\x7d"])]

/-- A token that fits no statement. -/
def unfitToken : Grammar :=
  .node "unfit" (.token .anything)

/-- The rules of statements, by phrase. -/
def statementRule : Phrase → Grammar
  | .program =>
    .seq [.optional (.token .interpreterLine), .many (.choice [.phrase .item, unfitToken])]
  | .block =>
    .node "statement block" (.seq [mark "\x7b",
      .many (.choice [.phrase .item, .seq [.unless (mark "\x7d"), unfitToken]]), mark "\x7d"])
  | .item => .choice [.phrase (.statement false), .phrase (.statement true)]
  | .statement lenient =>
    .choice [
      .phrase (.exportStatement lenient),
      .phrase (.importStatement lenient),
      .phrase (.importAlias lenient),
      .node "empty statement" (mark ";"),
      .phrase .block,
      .node "ambient declaration" (.seq [leadingWord "declare", ambientBody lenient]),
      plainDeclaration lenient,
      controlStatement,
      .node "labeled statement" (.seq [identifier, mark ":", .phrase .item]),
      .node "expression statement" (.seq [.phrase .expressions, semicolon lenient])]
  | .declaration lenient =>
    .choice [plainDeclaration lenient, .phrase .internalModule, .phrase (.importAlias lenient)]
  | .ambient lenient =>
    .node "ambient declaration" (.seq [keyword "declare", ambientBody lenient])
  | .exportStatement lenient =>
    .node "export statement" (.seq [.many decorator, leadingWord "export", exportBody lenient])
  | .importStatement lenient =>
    .node "import statement" (.seq [keyword "import",
      .choice [.seq [.choice [keyword "type", keyword "typeof"], importBody], importBody],
      .optional importAttribute, semicolon lenient])
  | .importAlias lenient =>
    .node "import alias" (.seq [keyword "import", identifier, markUnless "=" ["=", ">"], nestedName,
      semicolon lenient])
  | .internalModule =>
    .node "internal module" (.seq [leadingWord "namespace", .choice [stringLiteral, nestedName],
      .optional (.phrase .block)])
  | _ => .choice []

end DeclarationBundle.Syntax.Grammar
