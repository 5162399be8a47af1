import DeclarationBundle.Compiler.Layout
import DeclarationBundle.Compiler.Listing
import DeclarationBundle.Declaration

/-!
# Programs

A program is a list of source files that a compiler has looked at, with what it emits for each and
what it has to say against each.

* `Program.check` gives the declaration of a file, unless anything at all is said against it.
* `Program.ofListing` is the program of a compiler run: what it printed and the declarations that it
  wrote, each as some parser reads it.
-/

namespace DeclarationBundle

/-- A file of a program. Its text is looked up only when needed, unless it is given. -/
structure SourceFile where
  name : String
  contents : Option String
  deriving DecidableEq, Repr

/-- What a compiler emits for one file. -/
structure Emission where
  isSkipped : Bool
  diagnostics : List Diagnostic
  declaration : Option Declaration
  deriving Repr

/-- A compiled program. -/
structure Program where
  files : List SourceFile
  emit : String → Emission
  /-- What is said against a file by one part of the compiler. -/
  diagnostics : Category → String → List Diagnostic

namespace Program

/-- All that is said against a file, once it has been emitted. -/
def complaints (p : Program) (emission : Emission) (file : String) : List Diagnostic :=
  emission.diagnostics ++ p.diagnostics .semantic file ++ p.diagnostics .syntactic file ++
    p.diagnostics .declaration file

/-- **The declaration of a file**, or what is said against the file. -/
def check (p : Program) (emission : Emission) (file : String) :
    Except (List Diagnostic) Declaration :=
  match emission.declaration with
  | some declaration =>
    if emission.isSkipped || !(p.complaints emission file).isEmpty then
      .error (p.complaints emission file)
    else .ok declaration
  | none => .error (p.complaints emission file)

/-- What is said against a file by one part of the compiler, among some diagnostics. -/
def against (diagnostics : List Diagnostic) (category : Category) (file : String) :
    List Diagnostic :=
  diagnostics.filter fun d => d.category == category && d.file == some (Path.normalise file)

/-- What the compiler emitted for a file: what concerns no file stands against every one of them. -/
def emissionOf (parse : Parser) (cwd root : String) (diagnostics : List Diagnostic)
    (declarations : List (String × String)) (file : String) : Emission :=
  let said := diagnostics.filter (·.file.isNone) ++ against diagnostics .emit file
  let name := Layout.declarationName file
  match declarations.lookup (Layout.key cwd root name) with
  | none => ⟨true, said, none⟩
  | some text => ⟨false, said, some (.parsed parse name text)⟩

/-- **The program of a compiler run**, whose declarations are known by their place below `root`. -/
def ofListing (parse : Parser) (cwd root : String) (files : List String)
    (diagnostics : List Diagnostic) (declarations : List (String × String)) : Program where
  files := files.map (⟨·, none⟩)
  emit := emissionOf parse cwd root diagnostics declarations
  diagnostics := against diagnostics

end Program

end DeclarationBundle
