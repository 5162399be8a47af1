import DeclarationBundle.Text.Indent

/-!
# Sections of a bundle

What a bundle consists of, one section after the other, and the writes that put a section into an
output: a block of a module takes three and the alias of the main module four, so that a write that
fails leaves part of it behind.
-/

namespace DeclarationBundle

/-- How a bundle is laid out. -/
structure Style where
  eol : String
  indent : String
  deriving DecidableEq, Repr

/-- A section of a bundle. -/
inductive Section where
  /-- A reference to a declaration file outside the bundle. -/
  | reference (path : String)
  /-- The text of a declaration file. -/
  | copied (file text : String)
  /-- The declarations of a script, whose names are global. -/
  | script (file text : String)
  /-- The declarations of a module, in a block under its id. -/
  | block (id content : String)
  /-- A module called `name` that stands for the module `main`. -/
  | mainAlias (name main : String)
  deriving DecidableEq, Repr

namespace Section

/-- **The writes of a section**, in order. -/
def writes (style : Style) : Section → List String
  | .reference path => ["/// <reference path=\"" ++ path ++ "\" />" ++ style.eol]
  | .copied _ text => [text]
  | .script _ text => [text]
  | .block id content =>
    ["declare module '" ++ id ++ "' \x7b" ++ style.eol ++ style.indent,
      Text.indentLines style.eol style.indent content,
      style.eol ++ "\x7d" ++ style.eol]
  | .mainAlias name main =>
    ["declare module '" ++ name ++ "' \x7b" ++ style.eol ++ style.indent,
      "import main = require('" ++ main ++ "');" ++ style.eol ++ style.indent,
      "export = main;" ++ style.eol,
      "\x7d" ++ style.eol]

/-- The text of a section. -/
def text (style : Style) (s : Section) : String :=
  String.join (s.writes style)

end Section

end DeclarationBundle
