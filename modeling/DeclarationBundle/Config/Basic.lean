import DeclarationBundle.Json.Basic
import DeclarationBundle.Path.Basic

/-!
# Configurations

What a bundling run is to do. A configuration is read from the members of an object, each of which
holds a text or a list of texts; members of other names are ignored.

* `Config.violations` lists all that is wrong with the members: by field in the order of the fields,
  and within a list by index.
* `Config.ofJson` reads the configuration if nothing is wrong.
* A line end or a target that stands for nothing, and an indentation or a main module that is null,
  count as not given (`Field.ignores`).
-/

namespace DeclarationBundle

/-- What a bundling run is to do. -/
structure Config where
  /-- The directory that everything bundled lies in: absolute and in normal form. -/
  baseDir : String
  files : List String
  excludes : List String
  externs : List String
  eol : String
  /-- Accepted, but of no effect. -/
  includes : List String
  indent : String
  main : Option String
  name : String
  out : String
  target : String
  /-- The command that runs the compiler. -/
  compiler : List String
  deriving DecidableEq, Repr

namespace Config

/-- What a field holds. -/
inductive Shape where
  | text
  | texts
  deriving DecidableEq, Repr

/-- A field of a configuration. -/
structure Field where
  name : String
  shape : Shape
  isRequired : Bool
  /-- The values that count as not given. -/
  ignores : Json → Bool

/-- Ignores no value. -/
def nothing (_ : Json) : Bool :=
  false

/-- Ignores null. -/
def justNull : Json → Bool
  | .null => true
  | _ => false

/-- The fields in order. -/
def fields : List Field :=
  [⟨"base_dir", .text, true, nothing⟩, ⟨"files", .texts, false, nothing⟩,
    ⟨"excludes", .texts, false, nothing⟩, ⟨"externs", .texts, false, nothing⟩,
    ⟨"eol", .text, false, Json.isEmptyLike⟩, ⟨"includes", .texts, false, nothing⟩,
    ⟨"indent", .text, false, justNull⟩, ⟨"main", .text, false, justNull⟩,
    ⟨"name", .text, true, nothing⟩, ⟨"out", .text, true, nothing⟩,
    ⟨"target", .text, false, Json.isEmptyLike⟩, ⟨"compiler", .texts, false, nothing⟩]

/-- What can be wrong with a value. -/
inductive Complaint where
  | missing
  | notText
  /-- It is a string, but no text. -/
  | notUnicode
  | notList
  | notObject
  deriving DecidableEq, Repr

/-- The wording of a complaint. -/
def Complaint.message : Complaint → String
  | .missing => "Field required"
  | .notText => "Input should be a valid string"
  | .notUnicode => "Input should be a valid string, unable to parse raw data as a unicode string"
  | .notList => "Input should be a valid list"
  | .notObject => "Input should be a valid dictionary or instance of BundleConfig"

/-- The kind of a complaint, in one word. -/
def Complaint.kind : Complaint → String
  | .missing => "missing"
  | .notText => "string_type"
  | .notUnicode => "string_unicode"
  | .notList => "list_type"
  | .notObject => "model_type"

/-- What a complaint is about. -/
inductive Subject where
  | whole
  | field (name : String)
  | item (name : String) (index : Nat)
  deriving DecidableEq, Repr

/-- Something wrong with the values for a configuration. -/
structure Violation where
  subject : Subject
  complaint : Complaint
  deriving DecidableEq, Repr

/-- The members of an object, in order. -/
abbrev Members := List (String × Json)

/-- The value given for a field. -/
def Field.given? (f : Field) (members : Members) : Option Json :=
  match Json.getMember? members f.name with
  | some value => if f.ignores value then none else some value
  | none => none

/-- What is wrong with a value that should be a text, if anything is. -/
def textComplaint? : Json → Option Complaint
  | .string _ => none
  | .brokenText _ => some .notUnicode
  | _ => some .notText

/-- The complaints about the items of a list, the first of them at `index`. -/
def itemViolations (name : String) : Nat → List Json → List Violation
  | _, [] => []
  | index, item :: items =>
    ((textComplaint? item).map (⟨.item name index, ·⟩)).toList ++
      itemViolations name (index + 1) items

/-- What is wrong with the value of a field. -/
def Field.valueViolations (f : Field) (value : Json) : List Violation :=
  match f.shape with
  | .text => ((textComplaint? value).map (⟨.field f.name, ·⟩)).toList
  | .texts =>
    match value with
    | .array items => itemViolations f.name 0 items
    | _ => [⟨.field f.name, .notList⟩]

/-- What is wrong with a field. -/
def Field.violations (f : Field) (members : Members) : List Violation :=
  match f.given? members with
  | some value => f.valueViolations value
  | none => if f.isRequired then [⟨.field f.name, .missing⟩] else []

/-- **All that is wrong with some members.** -/
def violations (members : Members) : List Violation :=
  fields.flatMap (·.violations members)

/-- The value given for the field of some name. -/
def given? (members : Members) (name : String) : Option Json :=
  match fields.find? (·.name = name) with
  | some f => f.given? members
  | none => none

/-- The text given for a field. -/
def textOf (members : Members) (name : String) : Option String :=
  (given? members name).bind Json.text?

/-- The texts given for a field. -/
def textsOf (members : Members) (name : String) : Option (List String) :=
  match given? members name with
  | some (.array items) => some (items.filterMap Json.text?)
  | _ => none

/-- The line end where none is given. -/
def defaultEol : String := "\n"

/-- The indentation where none is given. -/
def defaultIndent : String := "\t"

/-- The target where none is given. -/
def defaultTarget : String := "ESNext"

/-- The compiler where none is given. -/
def defaultCompiler : List String := ["tsc"]

/-- The configuration that members in good order write, read from the directory `cwd`. -/
def ofMembers (cwd : String) (members : Members) : Config where
  baseDir := Path.absolute cwd ((textOf members "base_dir").getD "")
  files := (textsOf members "files").getD []
  excludes := (textsOf members "excludes").getD []
  externs := (textsOf members "externs").getD []
  eol := (textOf members "eol").getD defaultEol
  includes := (textsOf members "includes").getD []
  indent := (textOf members "indent").getD defaultIndent
  main := textOf members "main"
  name := (textOf members "name").getD ""
  out := (textOf members "out").getD ""
  target := (textOf members "target").getD defaultTarget
  compiler := (textsOf members "compiler").getD defaultCompiler

/-- **The configuration that a value writes**, or all that is wrong with the value. -/
def ofJson (cwd : String) (value : Json) : Except (List Violation) Config :=
  match value with
  | .object members =>
    match violations members with
    | [] => .ok (ofMembers cwd members)
    | wrong => .error wrong
  | _ => .error [⟨.whole, .notObject⟩]

/-- The members that write a configuration. -/
def toMembers (c : Config) : Members :=
  let texts (items : List String) := Json.array (items.map .string)
  [("base_dir", .string c.baseDir), ("files", texts c.files), ("excludes", texts c.excludes),
    ("externs", texts c.externs), ("eol", .string c.eol), ("includes", texts c.includes),
    ("indent", .string c.indent), ("main", c.main.elim .null .string), ("name", .string c.name),
    ("out", .string c.out), ("target", .string c.target), ("compiler", texts c.compiler)]

end Config

end DeclarationBundle
