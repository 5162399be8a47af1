import DeclarationBundle.Reference

/-!
# Declarations

The declaration text that a compiler has emitted for a source, with its syntax tree and whether it
is a module. A parser makes it of the text (`Declaration.parsed`). Which parser that is remains
open: a declaration is whatever it was made of, and what is needed of its tree is asked for where it
is needed.
-/

namespace DeclarationBundle

/-- Reads a text into its syntax tree. -/
abbrev Parser := String → Syntax.Node

/-- Emitted declaration text, under the name of its file. -/
structure Declaration where
  fileName : String
  text : String
  /-- The syntax of the text. -/
  tree : Syntax.Node
  /-- Whether the text is a module, rather than a script whose names are global. -/
  isExternalModule : Bool
  deriving Repr

namespace Declaration

/-- **The declaration that a parser makes of a text.** -/
def parsed (parse : Parser) (fileName text : String) : Declaration where
  fileName
  text
  tree := parse text
  isExternalModule := Reference.isExternalModule (Utf8.encode text) (parse text)

/-- The octets of the text. -/
def source (d : Declaration) : Bytes :=
  Utf8.encode d.text

/-- **The text as it stands in the block of the module `id`.** It comes to nothing if a literal that
names a module cannot be read, or if what is put together is no text; neither happens if the nodes
of the tree cut no character. -/
def rehomed (d : Declaration) (id : String) : Except Utf8.DecodeError String :=
  Rewrite.attempt d.tree d.source (Reference.rehome id d.source) (Reference.misread? d.source)

end Declaration

end DeclarationBundle
