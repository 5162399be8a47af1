import DeclarationBundle.ModuleId
import DeclarationBundle.Rewrite.Edit
import DeclarationBundle.Text.Word

/-!
# References between modules

Which string literals of a source name a module, whether the source is a module at all, and what its
references become once it stands in a named block of a bundle.

* `isRequireTarget` recognises `import x = require('m')` by its tokens, whatever the statement was
  read as.
* `isModuleSpecifier` recognises every literal that names a module.
* `isExternalModule` holds of a source whose statements import or export.
* `rehome` joins relative references to the id of the module they stand in and drops the `declare`
  keywords, which a block that is itself ambient does not admit.
* `misread?` tells a literal that names a module and cannot be read, since its node cuts a character
  of the source. Nothing can be moved then.
-/

namespace DeclarationBundle

open Syntax

namespace Reference

/-- A Latin letter, a low line or a dollar sign, and then word characters of any script and dollar
signs. -/
def isPlainWord : List Char → Bool
  | [] => false
  | c :: rest =>
    (c.isAlpha || c == '_' || c == '$') && rest.all fun d => Text.isWordChar d || d == '$'

/-- A name that can stand before the equals sign. A line feed at its end does not count. -/
def isImportName (name : String) : Bool :=
  let chars := name.toList
  isPlainWord (if chars.getLast? = some '\n' then chars.dropLast else chars)

/-- The text of a token, or the empty text for octets that are none. -/
def tokenText (token : Bytes) : String :=
  (Utf8.decode token).toOption.getD ""

/-- Whether some tokens, nearest first, lead up to the literal of `import x = require('m')`. -/
def leadsToRequire (tokens : List String) : Bool :=
  match tokens with
  | "(" :: "require" :: "=" :: name :: "import" :: _ => isImportName name
  | "(" :: "require" :: "=" :: name :: "type" :: "import" :: _ => isImportName name
  | _ => false

/-- The literal of `import x = require('m')`. -/
def isRequireTarget (source : Bytes) (c : Cursor) : Bool :=
  leadsToRequire ((c.previousTokens source 6).map tokenText)

/-- Whether two nodes cover the same octets. -/
def sameSpan (a b : Node) : Bool :=
  a.start == b.start && a.stop == b.stop

/-- **A literal that names the module** an import, an export or a `require` refers to. -/
def isModuleSpecifier (source : Bytes) (c : Cursor) : Bool :=
  match c.parent? with
  | none => false
  | some parent =>
    parent.isCalled Kind.importRequire.name || isRequireTarget source c ||
      ((parent.isCalled Kind.importStatement.name || parent.isCalled Kind.exportStatement.name) &&
        (parent.source?.map (sameSpan · c.node)).getD false)

/-- Whether a statement takes something from another module. -/
def importsModule (source : Bytes) (statement : Cursor) : Bool :=
  statement.node.source?.isSome ||
    statement.node.children.any (·.isCalled Kind.importRequire.name) ||
    statement.strings.any (isRequireTarget source)

/-- The statements that may turn out to be imports: a statement that could not be read whole may be
left as unfit tokens or as an expression. -/
def mayImport (node : Node) : Bool :=
  node.isCalled Kind.importStatement.name || node.isCalled Kind.unfit.name ||
    node.isCalled Kind.expressionStatement.name

/-- **A source is a module** when one of its statements exports, or imports from another module. To
rename a namespace by an import does not count. -/
def isExternalModule (source : Bytes) (tree : Node) : Bool :=
  (Cursor.root tree).children.any fun statement =>
    statement.node.isCalled Kind.exportStatement.name ||
      (mayImport statement.node && importsModule source statement)

/-- The end of the spaces and tabs that begin at `offset`. -/
def endOfSpaces (source : Bytes) (offset : Nat) : Nat :=
  offset + ((source.drop offset).takeWhile fun b => b == 0x20 || b == 0x09).length

/-- A literal between the same quotes that names the module a relative one leads to from `id`. -/
def joinLiteral (id literal : String) : Option String :=
  match literal.toList with
  | quote :: c :: rest =>
    let path := String.ofList (c :: rest).dropLast
    if ModuleId.isRelative path then
      some (String.singleton quote ++ ModuleId.join id path ++ String.singleton quote)
    else none
  | _ => none

/-- Why a literal that names a module cannot be read. -/
def misread? (source : Bytes) (c : Cursor) : Option Utf8.DecodeError :=
  if c.node.isString && isModuleSpecifier source c then
    match Utf8.decode (c.node.text source) with
    | .ok _ => none
    | .error error => some error
  else none

/-- **The edits of a declaration text that is put into the block of the module `id`.** A literal
that cannot be read is left as it is here; `misread?` is what finds it. -/
def rehome (id : String) (source : Bytes) : Replacer := fun c =>
  if c.node.kind = .declare then some ⟨"", endOfSpaces source c.node.stop⟩
  else if c.node.isString && isModuleSpecifier source c then
    match Utf8.decode (c.node.text source) with
    | .ok literal => (joinLiteral id literal).map Edit.ofText
    | .error _ => none
  else none

end Reference

end DeclarationBundle
