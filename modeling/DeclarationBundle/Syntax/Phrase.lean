import DeclarationBundle.Syntax.Rule

/-!
# Phrases

The phrases that the grammar of declaration files refers to by name, and short forms for the rules
that occur everywhere in it.

A statement is read strictly first. Where that fails it is read leniently (`lenient`): a semicolon
that should end it may be missing, and a word that does not belong into an export may be passed
over.
-/

namespace DeclarationBundle.Syntax

/-- A phrase of the grammar. -/
inductive Phrase where
  -- Types
  | type
  | unionType
  | intersectionType
  | typeOperand
  | postfixType
  | primaryType
  | typeReference
  | returnType
  | typeParameters
  | typeArguments
  | objectType
  | templateType
  -- Parameters and members
  | parameters
  | pattern
  | signature
  | propertyName
  | indexSignature
  | typeMember
  | classMember
  | classBody
  -- Expressions
  | expressions
  | expression
  | ternary
  | binary (level : Nat)
  | unary
  | suffixed
  | access
  | primary
  | arguments
  | template
  | objectLiteral
  -- Statements
  | program
  | block
  | item
  | statement (lenient : Bool)
  | declaration (lenient : Bool)
  | ambient (lenient : Bool)
  | exportStatement (lenient : Bool)
  | importStatement (lenient : Bool)
  | importAlias (lenient : Bool)
  | internalModule
  deriving DecidableEq, Repr

/-- A rule of the grammar. -/
abbrev Grammar := Rule Phrase

namespace Grammar

/-- A mark. -/
def mark (text : String) : Grammar :=
  .token (.mark text [])

/-- A mark that is not the beginning of a longer one. -/
def markUnless (text : String) (barred : List String) : Grammar :=
  .token (.mark text barred)

/-- A keyword. -/
def keyword (text : String) : Grammar :=
  .token (.keyword text)

/-- The words that stand for no value. -/
def reservedWords : List String :=
  ["break", "case", "catch", "class", "const", "continue", "debugger", "default", "delete", "do",
    "else", "enum", "extends", "false", "finally", "for", "function", "if", "import", "in",
    "instanceof", "new", "null", "return", "super", "switch", "this", "throw", "true", "try",
    "typeof", "var", "void", "while", "with"]

/-- A name that stands for a value. -/
def identifier : Grammar :=
  .token (.name "identifier" reservedWords)

/-- A name that stands for a type. -/
def typeName : Grammar :=
  .token (.name "type identifier" reservedWords)

/-- Any word, as the name of `construct`. -/
def word (construct : String) : Grammar :=
  .token (.name construct [])

def stringLiteral : Grammar :=
  .token .string

def number : Grammar :=
  .token .number

/-- The end of a statement. -/
def semicolon (lenient : Bool) : Grammar :=
  .choice ([.lineEnd false false, mark ";"] ++ if lenient then [.missing ";"] else [])

/-- The end of a signature, which a body may not follow. -/
def signatureEnd (lenient : Bool) : Grammar :=
  .choice ([.lineEnd false true, mark ";"] ++ if lenient then [.missing ";"] else [])

/-- A word that is a keyword only in front of more on the same line, and otherwise a name. -/
def leadingWord (text : String) : Grammar :=
  .seq [keyword text, .unless (.lineEnd true false)]

/-- Items between commas, perhaps none, perhaps with a comma at the end. -/
def listed (item : Grammar) : Grammar :=
  .seq [.optional (.separated (mark ",") item), .optional (mark ",")]

/-- Items with any number of commas between them. -/
def sparse (item : Grammar) : Grammar :=
  .many (.choice [mark ",", item])

/-- What the name of a member can begin with. -/
def memberStart : Grammar :=
  .ahead (.choice [word "property identifier", stringLiteral, number, .token .privateName, mark "[",
    mark "*"])

/-- A word that qualifies the member whose name follows it. -/
def modifier (text : String) : Grammar :=
  .seq [keyword text, .unless (.lineEnd false false), memberStart]

/-- A word that says who may use a member. -/
def accessibility : Grammar :=
  .node "accessibility modifier"
    (.choice [modifier "public", modifier "private", modifier "protected"])

end Grammar

end DeclarationBundle.Syntax
