import DeclarationBundle.Config.Basic
import DeclarationBundle.FileTree.Search
import DeclarationBundle.Json.Reader
import DeclarationBundle.Stack

/-!
# Options

Where the values of a configuration come from: a file of options, and what is given on the command
line, which takes precedence.

* `Options.load` reads a file of options. A relative base directory in it is relative to the file.
* `Options.toConfig` merges and validates, and expands the patterns among the files.

Most of what can go wrong is reported to whoever gave the options. `LoadError.isReported` and
`MergeError.isReported` say what is not.
-/

namespace DeclarationBundle.Options

/-- Why no options can be loaded from a file. -/
inductive LoadError where
  /-- The path of the file has a null character in it. -/
  | nullPath
  | unreadable (error : SystemError)
  | undecodable (error : Utf8.DecodeError)
  /-- The stack was too small to read the values. -/
  | overflow
  | malformed (error : Json.ReadError)
  | notObject (path : String)
  /-- The base directory is no path but a value of this type. -/
  | notPath (type : String)
  deriving DecidableEq, Repr

/-- The wording of an error. -/
def LoadError.message : LoadError → String
  | .nullPath => nullPathMessage
  | .unreadable error => error.message
  | .undecodable error => error.message
  | .overflow => Stack.overflowMessage
  | .malformed error => error.message
  | .notObject path => s!"{path} must contain a JSON object"
  | .notPath type => s!"expected str, bytes or os.PathLike object, not {type}"

/-- Whether the error is reported to whoever named the file. -/
def LoadError.isReported : LoadError → Bool
  | .overflow => false
  | .notPath _ => false
  | _ => true

/-- The type of a value, as a message names it. -/
def typeName : Json → String
  | .null => "NoneType"
  | .bool _ => "bool"
  | .integer _ => "int"
  | .decimal _ _ _ => "float"
  | .infinity _ => "float"
  | .nan => "float"
  | .string _ => "str"
  | .brokenText _ => "str"
  | .array _ => "list"
  | .object _ => "dict"

/-- The directory that a tidy path names something in. -/
def parent (path : String) : String :=
  let text := Path.root path ++ "/".intercalate (Path.steps path).dropLast
  if text = "" then "." else text

/-- A string that is no text, as a path read from a directory. It is not tidied, since nothing can
come of it any more. -/
def brokenPath (directory : String) (codes : List Nat) : List Nat :=
  if codes.head? = some '/'.toNat then codes
  else directory.toList.map Char.toNat ++ '/'.toNat :: codes

/-- Reads the base directory from the directory of the file, which has a tidy path. -/
def anchor (path : String) (members : Config.Members) : Except LoadError Config.Members :=
  match Json.getMember? members "base_dir" with
  | none => .ok members
  | some value =>
    if value.isEmptyLike then .ok members
    else
      match value with
      | .string base =>
        if Path.isAbsolute base then .ok members
        else .ok (Json.setMember members "base_dir"
          (.string (Path.tidy (Path.join (parent path) base))))
      | .brokenText codes =>
        .ok (Json.setMember members "base_dir" (.brokenText (brokenPath (parent path) codes)))
      | _ => .error (.notPath (typeName value))

/-- The options that the text of a file writes. -/
def ofText (path text : String) : Except LoadError Config.Members :=
  match Json.read (Text.withLineFeeds text) with
  | .error error => .error (.malformed error)
  | .ok (.object members) => anchor path members
  | .ok _ => .error (.notObject path)

/-- **The options in a file**; none where no file is given. -/
def load (stack : Stack) (t : FileTree) (cwd : String) (path : Option String) :
    Except LoadError Config.Members :=
  match path with
  | none => .ok []
  | some path =>
    let path := Path.tidy path
    match t.read cwd path with
    | .error .null => .error .nullPath
    | .error (.system error) => .error (.unreadable error)
    | .ok bytes =>
      match Utf8.decode bytes with
      | .error error => .error (.undecodable error)
      | .ok text =>
        if stack.overflows (.values text) then .error .overflow else ofText path text

/-- The names of line ends. -/
def eolNames : List (String × String) :=
  [("lf", "\n"), ("crlf", "\r\n"), ("cr", "\r")]

/-- A line end by its name in any case; any other text is the line end itself. -/
def parseEol (text : String) : String :=
  (eolNames.lookup (Text.mapChars Char.toLower text)).getD text

/-- A value that overrides nothing. -/
def isUnset : Json → Bool
  | .null => true
  | .array items => items.isEmpty
  | _ => false

/-- The options with some of them overridden. -/
def override (options overrides : Config.Members) : Config.Members :=
  (overrides.filter (!isUnset ·.2)).foldl (fun done m => Json.setMember done m.1 m.2) options

/-- The options with a value for one of them, unless it has one. -/
def setDefault (options : Config.Members) (name : String) (value : Json) : Config.Members :=
  match Json.getMember? options name with
  | some _ => options
  | none => Json.setMember options name value

/-- Why options give no configuration. -/
inductive MergeError where
  | invalid (wrong : List Config.Violation)
  /-- A directory that patterns are to be searched for in has a null character in its path. -/
  | nullPath
  /-- The stack was too small to search for the patterns. -/
  | overflow
  deriving DecidableEq, Repr

/-- Whether the error is reported to whoever gave the options. -/
def MergeError.isReported : MergeError → Bool
  | .overflow => false
  | _ => true

/-- The configuration with the patterns among its files expanded. -/
def expand (stack : Stack) (t : FileTree) (cwd : String) (config : Config) :
    Except MergeError Config :=
  if stack.overflows (.patterns config.baseDir config.files) then .error .overflow
  else if FileTree.startsNowhere config.baseDir config.files then .error .nullPath
  else .ok { config with files := t.expand cwd config.baseDir config.files }

/-- **The configuration of some options under some overrides.** -/
def toConfig (stack : Stack) (t : FileTree) (cwd : String) (options overrides : Config.Members) :
    Except MergeError Config :=
  match Config.ofJson cwd
    (.object (setDefault (override options overrides) "base_dir" (.string cwd))) with
  | .ok config => expand stack t cwd config
  | .error wrong => .error (.invalid wrong)

end DeclarationBundle.Options
