import DeclarationBundle.CommandLine.Usage
import DeclarationBundle.Text.Basic

/-!
# Arguments

The arguments of a command are options and the rest. A long option is a word behind two hyphens, and
its value may follow an equals sign; a short one is a character behind one hyphen, and several of
them may share it. Two hyphens alone end the options.

* `Arguments.parse` tells the two apart.
* A command that hands its arguments on to another one stops at the first that is no option.
-/

namespace DeclarationBundle.CommandLine

/-- An option of a command. -/
structure Switch where
  /-- What the value of the option is known by. -/
  key : String
  /-- The long name, hyphens included. -/
  long : String
  /-- The character of the short name. -/
  short : Option Char
  takesValue : Bool
  deriving DecidableEq, Repr

/-- An option that was given. -/
structure Given where
  key : String
  /-- The empty text for an option without a value. -/
  value : String
  deriving DecidableEq, Repr

/-- The arguments of a command, told apart. -/
structure Arguments where
  given : List Given
  rest : List String
  deriving DecidableEq, Repr

namespace Arguments

/-- What one argument amounts to: options, of which the last may be waiting for its value. -/
inductive Reading where
  | complete (given : List Given)
  | waiting (given : List Given) (key option : String)

/-- An argument that is read as options. -/
def isOption (argument : String) : Bool :=
  Text.startsWith argument "-" && argument != "-"

/-- The text before the first equals sign, and the text after it if there is one. -/
def splitValue (argument : String) : String × Option String :=
  let name := argument.toList.takeWhile (· != '=')
  (String.ofList name,
    match argument.toList.drop name.length with
    | [] => none
    | _ :: value => some (String.ofList value))

/-- The option of a short name. -/
def short? (switches : List Switch) (c : Char) : Option Switch :=
  switches.find? (·.short == some c)

/-- Reads the short options that share a hyphen. -/
def readShort (switches : List Switch) (given : List Given) : List Char → Except UsageError Reading
  | [] => .ok (.complete given)
  | c :: rest =>
    let name := "-" ++ String.singleton c
    match short? switches c with
    | none => .error (.noSuchOption name [])
    | some switch =>
      if !switch.takesValue then readShort switches (given ++ [⟨switch.key, ""⟩]) rest
      else if rest.isEmpty then .ok (.waiting given switch.key name)
      else .ok (.complete (given ++ [⟨switch.key, String.ofList rest⟩]))

/-- Reads an argument that is options. -/
def readOption (switches : List Switch) (argument : String) : Except UsageError Reading :=
  let (name, value) := splitValue argument
  match switches.find? (·.long == name) with
  | some switch =>
    match switch.takesValue, value with
    | true, some value => .ok (.complete [⟨switch.key, value⟩])
    | true, none => .ok (.waiting [] switch.key name)
    | false, some _ => .error (.takesNoValue name)
    | false, none => .ok (.complete [⟨switch.key, ""⟩])
  | none =>
    if Text.startsWith argument "--" then
      .error (.noSuchOption name (Similar.closest name (switches.map (·.long))))
    else readShort switches [] (argument.toList.drop 1)

/-- The arguments with more before them. -/
def after (given : List Given) (rest : List String) (a : Arguments) : Arguments :=
  ⟨given ++ a.given, rest ++ a.rest⟩

/-- **Tells options and the rest apart.** The command stops at the first argument that is no option
if `handsOn` holds. -/
def parse (switches : List Switch) (handsOn : Bool) : List String → Except UsageError Arguments
  | [] => .ok ⟨[], []⟩
  | argument :: arguments =>
    if argument = "--" then .ok ⟨[], arguments⟩
    else if isOption argument then
      match readOption switches argument with
      | .error error => .error error
      | .ok (.complete given) => (parse switches handsOn arguments).map (after given [])
      | .ok (.waiting given key option) =>
        match arguments with
        | [] => .error (.needsValue option)
        | value :: arguments =>
          (parse switches handsOn arguments).map (after (given ++ [⟨key, value⟩]) [])
    else if handsOn then .ok ⟨[], argument :: arguments⟩
    else (parse switches handsOn arguments).map (after [] [argument])

/-- The last value given for an option. -/
def value? (a : Arguments) (key : String) : Option String :=
  ((a.given.filter (·.key == key)).getLast?).map (·.value)

/-- All values given for an option. -/
def values (a : Arguments) (key : String) : List String :=
  (a.given.filter (·.key == key)).map (·.value)

/-- The options that were given, each once, in the order in which they first were. -/
def keys (a : Arguments) : List String :=
  (a.given.map (·.key)).eraseDups

end Arguments

end DeclarationBundle.CommandLine
