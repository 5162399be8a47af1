import DeclarationBundle.Syntax.Token

/-!
# Rules

A grammar gives a rule for each of its phrases; rules are values, and `Rule.read` reads a source by
one. Alternatives are ordered: the first that fits is taken, and what a rule fails at leaves no
trace.

* Blanks and comments may stand before every token but a `glued` one. Comments become nodes.
* `Rule.chain` reads operators that take what stands before them as their first operand, so that
  `a.b.c` nests to the left.
* The bound on the depth of the descent is an argument, so that reading always ends.
-/

namespace DeclarationBundle.Syntax

/-- A rule over the phrases `φ` of a grammar. -/
inductive Rule (φ : Type) where
  /-- One token, after blanks and comments. -/
  | token (lexeme : Lexeme)
  /-- One token, at once. -/
  | glued (lexeme : Lexeme)
  /-- The rule of a phrase. -/
  | phrase (name : φ)
  /-- All of some rules, in order. -/
  | seq (rules : List (Rule φ))
  /-- The first of some rules that fits. -/
  | choice (rules : List (Rule φ))
  /-- A rule as often as it fits, perhaps never. -/
  | many (rule : Rule φ)
  /-- Nothing, where a rule fits. -/
  | ahead (rule : Rule φ)
  /-- Nothing, where a rule does not fit. -/
  | unless (rule : Rule φ)
  /-- A rule whose nodes make up one construct. -/
  | node (construct : String) (rule : Rule φ)
  /-- A rule whose last node names the module that a statement refers to. -/
  | source (rule : Rule φ)
  /-- A rule, and then tails as often as one fits, each making one construct with all before it. -/
  | chain (base : Rule φ) (tails : List (String × Rule φ))
  /-- Nothing, where a statement may end without a semicolon. -/
  | lineEnd (afterOperand afterSignature : Bool)
  /-- A token that the source lacks. -/
  | missing (text : String)
  /-- Nothing, where a bracket opens and one of some marks follows the one that closes it. -/
  | closesBefore (marks : List String)

namespace Rule

/-- What reading by a rule gives: the nodes in order, and what is left. -/
abbrev Result := Option (List Node × Rest)

variable {φ : Type}

/-- A rule that may be left out. -/
def optional (rule : Rule φ) : Rule φ :=
  .choice [rule, .seq []]

/-- Items between separators, at least one. -/
def separated (separator item : Rule φ) : Rule φ :=
  .seq [item, .many (.seq [separator, item])]

/-- Reads by some rules in order. -/
def readAll (read : Rule φ → Rest → Result) : List (Rule φ) → Rest → Result
  | [], r => some ([], r)
  | rule :: rules, r =>
    match read rule r with
    | none => none
    | some (nodes, next) =>
      match readAll read rules next with
      | none => none
      | some (more, last) => some (nodes ++ more, last)

/-- Reads by the first of some rules that fits. -/
def readFirst (read : Rule φ → Rest → Result) : List (Rule φ) → Rest → Result
  | [], _ => none
  | rule :: rules, r =>
    match read rule r with
    | some found => some found
    | none => readFirst read rules r

/-- Reads by a rule until it fails or no longer advances, at most `count` times. -/
def readMany (read : Rest → Result) : Nat → Rest → List Node × Rest
  | 0, r => ([], r)
  | count + 1, r =>
    match read r with
    | none => ([], r)
    | some (nodes, next) =>
      if next.offset = r.offset then ([], r)
      else
        let (more, last) := readMany read count next
        (nodes ++ more, last)

/-- Reads by the first of some tails that fits. -/
def readTail (read : Rule φ → Rest → Result) :
    List (String × Rule φ) → Rest → Option (String × List Node × Rest)
  | [], _ => none
  | (construct, rule) :: tails, r =>
    match read rule r with
    | some (nodes, next) => some (construct, nodes, next)
    | none => readTail read tails r

/-- Adds tails to what has been read until none fits, at most `count` of them. -/
def readTails (read : Rule φ → Rest → Result) (tails : List (String × Rule φ)) :
    Nat → List Node → Rest → List Node × Rest
  | 0, nodes, r => (nodes, r)
  | count + 1, nodes, r =>
    match readTail read tails r with
    | none => (nodes, r)
    | some (construct, more, next) =>
      if next.offset = r.offset then (nodes, r)
      else readTails read tails count (Node.wrap construct (nodes ++ more)) next

/-- Marks the last of some nodes as the one that names the module referred to. -/
def markSource (nodes : List Node) : List Node :=
  match nodes.reverse with
  | [] => []
  | last :: before => ({ last with isSource := true } :: before).reverse

/-- **Reading by a rule** of a grammar, descending at most `depth` rules deep. -/
def read (grammar : φ → Rule φ) : Nat → Rule φ → Rest → Result
  | 0, _, _ => none
  | depth + 1, rule, r =>
    match rule with
    | .token lexeme =>
      let (comments, next) := gap r
      (lexeme.scan next).map fun (found, last) => (comments ++ [found], last)
    | .glued lexeme => (lexeme.scan r).map fun (found, last) => ([found], last)
    | .phrase name => read grammar depth (grammar name) r
    | .seq rules => readAll (read grammar depth) rules r
    | .choice rules => readFirst (read grammar depth) rules r
    | .many rule => some (readMany (read grammar depth rule) depth r)
    | .ahead rule => (read grammar depth rule r).map fun _ => ([], r)
    | .unless rule => if (read grammar depth rule r).isSome then none else some ([], r)
    | .node construct rule =>
      (read grammar depth rule r).map fun (nodes, next) => (Node.wrap construct nodes, next)
    | .source rule => (read grammar depth rule r).map fun (nodes, next) => (markSource nodes, next)
    | .chain base tails =>
      (read grammar depth base r).map fun (nodes, next) =>
        readTails (read grammar depth) tails depth nodes next
    | .lineEnd afterOperand afterSignature =>
      if endsLine afterOperand afterSignature r.chars then some ([], r) else none
    | .missing text => some ([⟨.token text, r.offset, r.offset, true, false, []⟩], r)
    | .closesBefore marks => if Syntax.closesBefore marks r then some ([], r) else none

end Rule

end DeclarationBundle.Syntax
