import DeclarationBundle.Text.Utf8

/-!
# Syntax trees

A source is read into a tree of nodes. A node covers a span of the source's octets; a node without
children is a token. Tokens with a fixed spelling are known by it, all other nodes by the name of
the construct they are.

* The keyword `string` and a string literal are both string nodes (`Node.isString`).
* Comments are nodes like any other, and tokens that a reader had to supply cover nothing
  (`isMissing`).
-/

namespace DeclarationBundle.Syntax

/-- What a node is. -/
inductive Kind where
  /-- A keyword or mark, by its spelling. -/
  | token (spelling : String)
  /-- A construct, by its name. -/
  | phrase (name : String)
  deriving DecidableEq, Repr

namespace Kind

/-- The word a kind is known by. -/
def name : Kind → String
  | .token spelling => spelling
  | .phrase name => name

def comment : Kind := .phrase "comment"
def string : Kind := .phrase "string"
def importStatement : Kind := .phrase "import statement"
def exportStatement : Kind := .phrase "export statement"
def expressionStatement : Kind := .phrase "expression statement"
/-- `x = require('m')` in an import statement. -/
def importRequire : Kind := .phrase "import require"
/-- Tokens that fit no construct. -/
def unfit : Kind := .phrase "unfit"
/-- The keyword that makes a declaration ambient. -/
def declare : Kind := .token "declare"

end Kind

/-- A node and the octets from `start` up to `stop` that it covers. -/
structure Node where
  kind : Kind
  start : Nat
  stop : Nat
  /-- The token was not in the source. -/
  isMissing : Bool
  /-- The node names the module that the statement around it refers to. -/
  isSource : Bool
  children : List Node
  deriving Repr

namespace Node

/-- A token. -/
def token (kind : Kind) (start stop : Nat) : Node :=
  ⟨kind, start, stop, false, false, []⟩

/-- A node known by the word `name`, whatever it is. -/
def isCalled (node : Node) (name : String) : Bool :=
  node.kind.name == name

/-- A string literal, or the keyword of the string type. -/
def isString (node : Node) : Bool :=
  node.isCalled "string"

def isComment (node : Node) : Bool :=
  node.isCalled "comment"

/-- The octets that a node covers. -/
def text (source : Bytes) (node : Node) : Bytes :=
  (source.drop node.start).take (node.stop - node.start)

/-- The child that names the module referred to. -/
def source? (node : Node) : Option Node :=
  node.children.find? (·.isSource)

/-- A node of the given construct around some nodes. Comments in front of the first of them stay
outside; a construct without any node of its own is left out. -/
def wrap (name : String) (nodes : List Node) : List Node :=
  let outside := nodes.takeWhile isComment
  let inside := nodes.dropWhile isComment
  match inside, inside.getLast? with
  | first :: _, some last => outside ++
      [⟨.phrase name, first.start, last.stop, false, false, inside⟩]
  | _, _ => nodes

end Node

end DeclarationBundle.Syntax
