import DeclarationBundle.Diagnostic
import DeclarationBundle.Json.Reader
import DeclarationBundle.Path.Basic
import DeclarationBundle.Text.Blank
import DeclarationBundle.Text.Digit

/-!
# What a compiler prints

A compiler that lists the files of its program prints one path a line, and among them its
diagnostics. `Listing.read` takes the lines apart (`Line.classify`) and collects them.

* A line that begins with a blank goes on with the message of the diagnostic before it.
* A diagnostic about a file is cut at the first place where `(line,column): error TSn: ` stands.
* A number is read in the digits of any script; one that is too long is refused.
-/

namespace DeclarationBundle

/-- A whole number of too many digits. -/
structure TooManyDigits where
  count : Nat
  deriving DecidableEq, Repr

/-- A number that is too long has ended the reading. What was complained about before stays. -/
structure Interruption where
  error : TooManyDigits
  warnings : List String
  deriving DecidableEq, Repr

/-- What a compiler printed: the files of the program in order, its diagnostics, and complaints
about lines that are neither. -/
structure Listing where
  files : List String
  diagnostics : List Diagnostic
  warnings : List String
  deriving DecidableEq, Repr

namespace Listing

/-- One line of output. -/
inductive Line where
  | blank
  | continuation (text : String)
  | diagnostic (d : Diagnostic)
  | file (path : String)
  | unrecognised (text : String)
  deriving DecidableEq, Repr

/-- The endings of the files that a program consists of. -/
def programSuffixes : List String :=
  [".ts", ".tsx", ".mts", ".cts", ".js", ".jsx", ".json"]

/-- A path of the program, in normal form from the directory the compiler ran in. -/
def resolve (cwd path : String) : String :=
  Path.absolute cwd path

/-- The text after `start`, if the text begins with it. -/
def after? (start : String) (text : List Char) : Option (List Char) :=
  if start.toList.isPrefixOf text then some (text.drop start.length) else none

/-- A row of digits, and what follows it. -/
def digits? (text : List Char) : Option (List Char × List Char) :=
  let digits := text.takeWhile Text.isDigit
  if digits.isEmpty then none else some (digits, text.drop digits.length)

/-- The code and the message, where `error TSn: ` stands. -/
def error? (text : List Char) : Option (List Char × List Char) := do
  let rest ← after? "error TS" text
  let (code, rest) ← digits? rest
  let message ← after? ": " rest
  some (code, message)

/-- The line, column, code and message, where `(line,column): error TSn: ` stands. -/
def place? (text : List Char) : Option (List Char × List Char × List Char × List Char) := do
  let rest ← after? "(" text
  let (line, rest) ← digits? rest
  let rest ← after? "," rest
  let (column, rest) ← digits? rest
  let rest ← after? "): " rest
  let (code, message) ← error? rest
  some (line, column, code, message)

/-- The text before the first place, which is not empty, and what stands there. -/
def fileError? : List Char → Option (List Char × List Char × List Char × List Char × List Char)
  | [] => none
  | c :: rest =>
    match place? rest with
    | some found => some ([c], found)
    | none => (fileError? rest).map fun (file, found) => (c :: file, found)

/-- The number that some digits write. -/
def toNumber (digits : List Char) : Except TooManyDigits Int :=
  if digits.length > Json.maxDigits then .error ⟨digits.length⟩ else .ok (Text.ofDigits digits)

/-- What a line of output is. -/
def Line.classify (cwd line : String) : Except TooManyDigits Line :=
  let stripped := Text.strip line
  if stripped = "" then .ok .blank
  else if (line.toList.head?.map Text.isBlank).getD false then
    .ok (.continuation (Text.stripEnd line))
  else
    match fileError? line.toList with
    | some (name, row, column, code, message) => do
      let code ← toNumber code
      let row ← toNumber row
      let column ← toNumber column
      .ok (.diagnostic ⟨code, String.ofList message, some (resolve cwd (String.ofList name)), row,
        column, Diagnostic.categorize code true⟩)
    | none =>
      match error? line.toList with
      | some (code, message) => do
        let code ← toNumber code
        .ok (.diagnostic ⟨code, String.ofList message, none, 0, 0,
          Diagnostic.categorize code false⟩)
      | none =>
        if programSuffixes.any (Text.endsWith stripped) then .ok (.file (resolve cwd stripped))
        else .ok (.unrecognised line)

/-- Nothing printed. -/
def empty : Listing :=
  ⟨[], [], []⟩

/-- Adds a line to the message of the last diagnostic, if there is one. -/
def continueLast (diagnostics : List Diagnostic) (text : String) : List Diagnostic :=
  match diagnostics.reverse with
  | [] => []
  | last :: before =>
    ({ last with message := last.message ++ "\n" ++ text } :: before).reverse

/-- The listing with one line more. -/
def add (listing : Listing) : Line → Listing
  | .blank => listing
  | .continuation text => { listing with diagnostics := continueLast listing.diagnostics text }
  | .diagnostic d => { listing with diagnostics := listing.diagnostics ++ [d] }
  | .file path => { listing with files := listing.files ++ [path] }
  | .unrecognised text =>
    { listing with warnings := listing.warnings ++ [s!"Ignoring unrecognized tsc output: {text}"] }

/-- The listing with some lines more. -/
def addAll (cwd : String) : Listing → List String → Except Interruption Listing
  | listing, [] => .ok listing
  | listing, line :: lines =>
    match Line.classify cwd line with
    | .error e => .error ⟨e, listing.warnings⟩
    | .ok line => addAll cwd (listing.add line) lines

/-- **What a compiler that ran in `cwd` has printed.** -/
def read (cwd output : String) : Except Interruption Listing :=
  addAll cwd .empty (Text.splitLines output)

end Listing

end DeclarationBundle
