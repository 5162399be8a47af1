import DeclarationBundle.Text.Basic

/-!
# Wildcard patterns

A pattern for names: `*` stands for any text, `?` for any character, and characters in brackets for
one of them, or for one of all others if an exclamation mark comes first. A bracket that is not
closed stands for itself.

* `Wildcard.parse` reads a pattern, `Wildcard.accepts` holds it against a name.
* A range whose ends are the wrong way round stands for no character at all. Whether a set excludes
  is read off what remains without such ranges.
-/

namespace DeclarationBundle.Wildcard

/-- What a set of characters is made of. -/
inductive Member where
  | one (c : Char)
  | range (first last : Char)
  deriving DecidableEq, Repr

/-- A part of a pattern. -/
inductive Part where
  | anyText
  | anyChar
  | exactly (c : Char)
  | oneOf (excludes : Bool) (members : List Member)
  deriving DecidableEq, Repr

/-- Whether a character is among those of a member. -/
def Member.has : Member → Char → Bool
  | .one a, c => a == c
  | .range first last, c => decide (first ≤ c) && decide (c ≤ last)

/-- Whether a member stands for anything. -/
def Member.isOrdered : Member → Bool
  | .one _ => true
  | .range first last => decide (first ≤ last)

/-- The members that some characters write: a hyphen between two characters makes a range of
them. -/
def members : List Char → List Member
  | a :: '-' :: b :: rest => .range a b :: members rest
  | a :: rest => .one a :: members rest
  | [] => []

/-- The set that the characters between brackets write. -/
def charSet (body : List Char) : Part :=
  match body with
  | '!' :: rest => .oneOf true ((members rest).filter Member.isOrdered)
  | _ =>
    match (members body).filter Member.isOrdered with
    | .one '!' :: rest => .oneOf true rest
    | .range '!' last :: rest => .oneOf true (.one '-' :: .one last :: rest)
    | kept => .oneOf false kept

/-- The characters up to the bracket that closes a set, and those after it. A bracket that comes
first, or first after the exclamation mark, is a member. -/
def bracket? (text : List Char) : Option (List Char × List Char) :=
  let mark := if text.head? = some '!' then 1 else 0
  let first := if (text.drop mark).head? = some ']' then mark + 1 else mark
  let body := text.take first ++ (text.drop first).takeWhile (· != ']')
  match text.drop body.length with
  | [] => none
  | _ :: rest => some (body, rest)

/-- The parts of a pattern of at most as many characters as `bound` has. -/
def partsFrom : List Char → List Char → List Part
  | [], _ => []
  | _, [] => []
  | _ :: bound, '*' :: rest => .anyText :: partsFrom bound rest
  | _ :: bound, '?' :: rest => .anyChar :: partsFrom bound rest
  | _ :: bound, '[' :: rest =>
    match bracket? rest with
    | some (body, rest) => charSet body :: partsFrom bound rest
    | none => .exactly '[' :: partsFrom bound rest
  | _ :: bound, c :: rest => .exactly c :: partsFrom bound rest

/-- The parts of a pattern. -/
def parse (pattern : String) : List Part :=
  partsFrom pattern.toList pattern.toList

/-- Whether a part that stands for one character stands for this one. -/
def Part.has : Part → Char → Bool
  | .anyText, _ => false
  | .anyChar, _ => true
  | .exactly a, c => a == c
  | .oneOf excludes members, c => excludes != members.any (·.has c)

/-- Whether `p` holds of what is left of a text somewhere, its end included. -/
def someTail (p : List Char → Bool) : List Char → Bool
  | [] => p []
  | c :: rest => p (c :: rest) || someTail p rest

/-- Whether some parts stand for the whole of a text. -/
def partsAccept : List Part → List Char → Bool
  | [], text => text.isEmpty
  | .anyText :: parts, text => someTail (partsAccept parts) text
  | part :: parts, c :: rest => part.has c && partsAccept parts rest
  | _ :: _, [] => false

/-- **Whether a pattern stands for a name.** -/
def accepts (pattern name : String) : Bool :=
  partsAccept (parse pattern) name.toList

/-- A character that makes a pattern of a text. -/
def isSpecial (c : Char) : Bool :=
  c == '*' || c == '?' || c == '['

/-- A text that may stand for another one. -/
def isPattern (text : String) : Bool :=
  text.toList.any isSpecial

end DeclarationBundle.Wildcard
