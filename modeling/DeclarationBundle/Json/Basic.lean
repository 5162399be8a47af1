/-!
# JSON values

The values that an options file can hold. Whole numbers are kept apart from numbers written with a
point or an exponent, and both are exact: `15e-1` and `1.5` are the same decimal but not a whole
number.

* Members of an object stand in the order of their keys' first appearance, one per key
  (`ofMembers`).
* An escape can write half of a surrogate pair where the other half is missing. A string with such a
  half is no text, but it is a string all the same (`Json.brokenText`).
* `isEmptyLike` says which values an option treats as not given.
-/

namespace DeclarationBundle

/-- A JSON value, with the non-finite numbers that lenient readers admit. -/
inductive Json where
  | null
  | bool (value : Bool)
  | integer (value : Int)
  /-- `digits * 10 ^ exponent`, under a sign. -/
  | decimal (negative : Bool) (digits : Nat) (exponent : Int)
  | infinity (negative : Bool)
  | nan
  | string (text : String)
  /-- A string that is no text, by its code points: at least one is half of a surrogate pair. -/
  | brokenText (codes : List Nat)
  | array (items : List Json)
  | object (members : List (String × Json))
  deriving Inhabited

namespace Json

/-- Sets the value of a key, in its old place or else at the end. -/
def setMember (members : List (String × Json)) (key : String) (value : Json) :
    List (String × Json) :=
  match members with
  | [] => [(key, value)]
  | (k, v) :: rest => if k = key then (k, value) :: rest else (k, v) :: setMember rest key value

/-- The object of some members in order: of members with one key the last value counts. -/
def ofMembers (members : List (String × Json)) : List (String × Json) :=
  members.foldl (fun done m => setMember done m.1 m.2) []

/-- The value of a key among some members. -/
def getMember? (members : List (String × Json)) (key : String) : Option Json :=
  (members.find? (·.1 = key)).map (·.2)

/-- The member called `key`, if this is an object that has one. -/
def member? (json : Json) (key : String) : Option Json :=
  match json with
  | .object members => getMember? members key
  | _ => none

/-- The value of the member called `key`; null where there is none. -/
def get (json : Json) (key : String) : Json :=
  (json.member? key).getD .null

/-- The text that a value is. -/
def text? : Json → Option String
  | .string text => some text
  | _ => none

/-- The items of an array; any other value has none. -/
def items : Json → List Json
  | .array items => items
  | _ => []

/-- The members of an object; any other value has none. -/
def members : Json → List (String × Json)
  | .object members => members
  | _ => []

/-- Whether a value is the truth value given. -/
def isBool (truth : Bool) : Json → Bool
  | .bool value => value == truth
  | _ => false

/-- A decimal whose nearest double-precision number is zero: at most half the least positive one,
`2 ^ (-1074)`. -/
def roundsToZero (digits : Nat) (exponent : Int) : Bool :=
  if digits = 0 then true
  else if exponent + (Nat.toDigits 10 digits).length < -400 then true
  else if 0 ≤ exponent then false
  else decide (digits * Nat.pow 2 1075 ≤ Nat.pow 10 exponent.natAbs)

/-- A value that stands for nothing: null, false, zero, or an empty text, array or object. -/
def isEmptyLike : Json → Bool
  | .null => true
  | .bool value => !value
  | .integer value => value == 0
  | .decimal _ digits exponent => roundsToZero digits exponent
  | .infinity _ => false
  | .nan => false
  | .string text => text == ""
  | .brokenText _ => false
  | .array items => items.isEmpty
  | .object members => members.isEmpty

end Json

end DeclarationBundle
