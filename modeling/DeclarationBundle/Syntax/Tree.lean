import DeclarationBundle.Syntax.StatementRules

/-!
# Reading a source

`Syntax.parse` reads the whole of a source into a tree. It never fails: tokens that fit no statement
become nodes of their own.
-/

namespace DeclarationBundle.Syntax

/-- **The grammar**: the rule of every phrase. -/
def grammar (phrase : Phrase) : Grammar :=
  match phrase with
  | .type | .unionType | .intersectionType | .typeOperand | .postfixType | .primaryType
  | .typeReference | .returnType | .typeParameters | .typeArguments | .objectType | .templateType =>
    Grammar.typeRule phrase
  | .parameters | .pattern | .signature | .propertyName | .indexSignature | .typeMember
  | .classMember | .classBody =>
    Grammar.memberRule phrase
  | .expressions | .expression | .ternary | .binary _ | .unary | .suffixed | .access | .primary
  | .arguments | .template | .objectLiteral =>
    Grammar.expressionRule phrase
  | .program | .block | .item | .statement _ | .declaration _ | .ambient _ | .exportStatement _
  | .importStatement _ | .importAlias _ | .internalModule =>
    Grammar.statementRule phrase

/-- How deep a descent into a source of the given length may go: fewer rules than this lie between a
bracket and what it holds. -/
def depthBound (length : Nat) : Nat :=
  96 * (length + 16)

/-- The tree of a source. -/
def parse (text : String) : Node :=
  let chars := text.toList
  let start : Rest := ⟨0, chars⟩
  let (nodes, rest) :=
    (Rule.read grammar (depthBound chars.length) (.phrase .program) start).getD ([], start)
  let children := nodes ++ (gap rest).1
  let stop := octets chars
  ⟨.phrase "program", (children.head?.map (·.start)).getD stop, stop, false, false, children⟩

end DeclarationBundle.Syntax
