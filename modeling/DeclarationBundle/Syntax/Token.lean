import DeclarationBundle.Syntax.Node

/-!
# Tokens

How the tokens of a source are cut out of its characters. Which token is wanted depends on the
construct being read, so a token is looked for by its class (`Lexeme`), never guessed from the text
alone: a slash begins a regular expression where an operand is due and divides elsewhere.

* `gap` passes over blanks and comments, which may stand before any token.
* `Lexeme.scan` cuts one token.
* `endsLine` says whether a statement may end without a semicolon.
-/

namespace DeclarationBundle.Syntax

/-- What is left of a source: the octet it begins at, and its characters. -/
structure Rest where
  offset : Nat
  chars : List Char

/-- The number of octets that some characters take. -/
def octets (chars : List Char) : Nat :=
  chars.foldr (fun c size => c.utf8Size + size) 0

/-- Moves past `n` characters. -/
def Rest.advance (r : Rest) (n : Nat) : Rest :=
  ⟨r.offset + octets (r.chars.take n), r.chars.drop n⟩

/-- The token that covers the next `n` characters, and what is left after it. -/
def Rest.cut (r : Rest) (kind : Kind) (n : Nat) : Node × Rest :=
  let next := r.advance n
  (.token kind r.offset next.offset, next)

/-! ### Characters -/

/-- A character that separates tokens. -/
def isBlank (c : Char) : Bool :=
  let n := c.toNat
  (0x09 ≤ n && n ≤ 0x0D) || n == 0x20 || n == 0xA0 || n == 0x1680 || (0x2000 ≤ n && n ≤ 0x200B) ||
    n == 0x2028 || n == 0x2029 || n == 0x202F || n == 0x205F || n == 0x2060 || n == 0x3000 ||
      n == 0xFEFF

/-- A blank that a line may end after. Spaces that forbid a break are none. -/
def isBreakable (c : Char) : Bool :=
  let n := c.toNat
  (0x09 ≤ n && n ≤ 0x0D) || n == 0x20 || n == 0x1680 ||
    (0x2000 ≤ n && n ≤ 0x200A && n != 0x2007) || n == 0x2028 || n == 0x2029 || n == 0x205F ||
      n == 0x3000

/-- A character that ends a line comment. -/
def isLineEnd (c : Char) : Bool :=
  c == '\n' || c == '\r' || c.toNat == 0x2028 || c.toNat == 0x2029

/-- The marks, none of which can be part of a name. -/
def markChars : List Char :=
  ['.', ',', ':', ';', '(', ')', '\x7b', '\x7d', '[', ']', '<', '>', '\'', '"', '\x60', '=', '|',
    '&', '?', '*', '/', '+', '-', '\\', '#', '@', '^', '%', '!', '~']

/-- A character that a name can go on with. -/
def isNameChar (c : Char) : Bool :=
  0x20 < c.toNat && !isBlank c && !markChars.contains c

/-- A character that a name can begin with. -/
def isNameStart (c : Char) : Bool :=
  isNameChar c && !c.isDigit

def isHexDigit (c : Char) : Bool :=
  c.isDigit || ('a' ≤ c && c ≤ 'f') || ('A' ≤ c && c ≤ 'F')

/-- How many characters a code in braces takes, braces included. -/
def bracedCodeLength? : List Char → Option Nat
  | '\x7b' :: more =>
    let digits := more.takeWhile isHexDigit
    if !digits.isEmpty && (more.drop digits.length).head? == some '\x7d' then
      some (digits.length + 2)
    else none
  | _ => none

/-- How many characters the code after `\u` takes. -/
def codeLength? (chars : List Char) : Option Nat :=
  if (chars.take 4).length == 4 && (chars.take 4).all isHexDigit then some 4
  else bracedCodeLength? chars

/-! ### Blanks and comments -/

/-- How many characters come before the end of a block comment, the end included. -/
def blockLength? : List Char → Option Nat
  | '*' :: '/' :: _ => some 2
  | _ :: rest => (blockLength? rest).map (· + 1)
  | [] => none

/-- How many characters a comment takes, if one begins here. -/
def commentLength? : List Char → Option Nat
  | '/' :: '/' :: rest => some ((rest.takeWhile fun c => !isLineEnd c).length + 2)
  | '/' :: '*' :: rest => (blockLength? rest).map (· + 2)
  | _ => none

/-- The comments up to the next token, and what is left there. The first argument bounds their
number by its length. -/
def gapFrom : List Char → Rest → List Node × Rest
  | [], r => ([], r)
  | _ :: fuel, r =>
    let r := r.advance (r.chars.takeWhile isBlank).length
    match commentLength? r.chars with
    | none => ([], r)
    | some n =>
      let (comment, next) := r.cut .comment n
      let (comments, last) := gapFrom fuel next
      (comment :: comments, last)

/-- The comments up to the next token, and what is left there. A comment takes two characters at
least, so their number is below that of the characters. -/
def gap (r : Rest) : List Node × Rest :=
  gapFrom (' ' :: r.chars) r

/-- Passes over breakable blanks and comments, or fails at a slash that begins no comment. The first
argument bounds the number of comments by its length. -/
def skipBreakable : List Char → List Char → Option (List Char)
  | [], chars => some chars
  | _ :: fuel, chars =>
    match chars.dropWhile isBreakable with
    | '/' :: '/' :: rest => skipBreakable fuel (rest.dropWhile (· != '\n'))
    | '/' :: '*' :: rest =>
      match blockLength? rest with
      | some n => skipBreakable fuel (rest.drop n)
      | none => some []
    | '/' :: _ => none
    | rest => some rest

/-- The marks that go on with the statement before them whatever it is. -/
def continuingMarks : List Char :=
  ['\x60', ',', '.', ';', '*', '%', '>', '<', '=', '?', '^', '|', '&', '/', ':']

/-- Whether the text after a line break begins a new statement. What could go on with the one before
does not: an operator, a bracket after an operand, or a body after a signature. -/
def beginsStatement (afterOperand afterSignature : Bool) : List Char → Bool
  | '+' :: rest => rest.head? == some '+'
  | '-' :: rest => rest.head? == some '-'
  | '!' :: rest => rest.head? != some '='
  | 'i' :: 'n' :: rest =>
    if !((rest.head?.map Char.isAlpha).getD false) then false
    else if "stanceof".toList.isPrefixOf rest then ((rest.drop 8).head?.map Char.isAlpha).getD false
    else true
  | '(' :: _ | '[' :: _ => !afterOperand
  | '\x7b' :: _ => !afterSignature
  | c :: _ => !(continuingMarks.contains c)
  | [] => true

/-- **Whether a statement may end here without a semicolon**: before a closing brace, at the end, at
a comment, or at a line break that a new statement follows. -/
def endsLine (afterOperand afterSignature : Bool) (chars : List Char) : Bool :=
  match chars.dropWhile fun c => isBreakable c && c != '\n' with
  | [] => true
  | '\x7d' :: _ => true
  | '\n' :: rest =>
    match skipBreakable ('\n' :: rest) rest with
    | none => false
    | some next => beginsStatement afterOperand afterSignature next
  | '/' :: rest =>
    match skipBreakable ('/' :: rest) ('/' :: rest) with
    | none => false
    | some next => next.head? != some ',' && next.head? != some '='
  | _ => false

/-! ### Token classes -/

/-- A class of tokens. -/
inductive Lexeme where
  /-- A mark, unless the text goes on with one of `barred`. -/
  | mark (text : String) (barred : List String)
  | keyword (text : String)
  /-- A name, of the given construct, other than the words of `barred`. -/
  | name (construct : String) (barred : List String)
  | privateName
  | number
  | string
  | regularExpression
  /-- Plain characters of a template. -/
  | templateText
  /-- A backslash and what it escapes. -/
  | escape
  /-- The line that names an interpreter. -/
  | interpreterLine
  /-- One token of any class. -/
  | anything

/-- How many characters the name that begins here takes. The first argument bounds them by its
length. -/
def nameLength : List Char → List Char → Nat
  | [], _ => 0
  | _ :: fuel, chars =>
    match chars with
    | '\\' :: 'u' :: rest =>
      match codeLength? rest with
      | some n => n + 2 + nameLength fuel (rest.drop n)
      | none => 0
    | c :: rest => if isNameChar c then 1 + nameLength fuel rest else 0
    | [] => 0

/-- The name that begins here, if one does. -/
def nameHere? (chars : List Char) : Option (List Char) :=
  match chars with
  | [] => none
  | c :: _ =>
    if isNameStart c || c == '\\' then
      let n := nameLength chars chars
      if n = 0 then none else some (chars.take n)
    else none

/-- How many characters an escape takes, backslash included. -/
def escapeLength? : List Char → Option Nat
  | '\\' :: 'u' :: rest => (codeLength? rest).map (· + 2)
  | '\\' :: 'x' :: rest =>
    if (rest.take 2).length == 2 && (rest.take 2).all isHexDigit then some 4 else none
  | '\\' :: '\r' :: '\n' :: _ => some 3
  | '\\' :: c :: rest =>
    if '0' ≤ c && c ≤ '7' then
      some (2 + ((rest.take 2).takeWhile fun d => '0' ≤ d && d ≤ '7').length)
    else some 2
  | _ => none

/-- The fragments and escapes up to the closing quote `mark`, the quote, and what is left after
it. -/
def stringParts (mark : Char) : Nat → Rest → Option (List Node × Rest)
  | 0, _ => none
  | fuel + 1, r =>
    match r.chars with
    | [] => none
    | c :: _ =>
      if c = mark then
        let (quote, next) := r.cut (.token (String.singleton mark)) 1
        some ([quote], next)
      else
        let plain := r.chars.takeWhile fun d => d != mark && d != '\\' && d != '\n' && d != '\r'
        let piece :=
          if plain.isEmpty then (escapeLength? r.chars).map (r.cut (.phrase "escape"))
          else some (r.cut (.phrase "fragment") plain.length)
        match piece with
        | none => none
        | some (part, next) =>
          (stringParts mark fuel next).map fun (parts, last) => (part :: parts, last)

/-- The string literal that begins here. -/
def scanString (r : Rest) : Option (Node × Rest) :=
  match r.chars with
  | c :: _ =>
    if c == '"' || c == '\'' then
      let (quote, next) := r.cut (.token (String.singleton c)) 1
      (stringParts c r.chars.length next).map fun (parts, last) =>
        (⟨.string, r.offset, last.offset, false, false, quote :: parts⟩, last)
    else none
  | [] => none

/-- How many plain template characters there are before a substitution, an escape or the end. -/
def templateLength : List Char → Nat
  | '\x60' :: _ => 0
  | '\\' :: _ => 0
  | '$' :: '\x7b' :: _ => 0
  | _ :: rest => templateLength rest + 1
  | [] => 0

/-- How many characters come before the slash that closes a regular expression. A slash inside
brackets does not. -/
def patternLength? (inBrackets : Bool) : List Char → Option Nat
  | '\\' :: c :: rest => if isLineEnd c then none else (patternLength? inBrackets rest).map (· + 2)
  | c :: rest =>
    if isLineEnd c then none
    else if c == '/' && !inBrackets then some 0
    else
      (patternLength? (if c == '[' then true else if c == ']' then false else inBrackets) rest).map
        (· + 1)
  | [] => none

/-- The regular expression that begins here. -/
def scanRegularExpression (r : Rest) : Option (Node × Rest) :=
  match r.chars with
  | '/' :: rest =>
    match patternLength? false rest with
    | none | some 0 => none
    | some n =>
      let (opening, afterOpening) := r.cut (.token "/") 1
      let (pattern, afterPattern) := afterOpening.cut (.phrase "pattern") n
      let (closing, afterClosing) := afterPattern.cut (.token "/") 1
      let flags := afterClosing.chars.takeWhile Char.isLower
      let (flagNodes, last) :=
        if flags.isEmpty then ([], afterClosing)
        else
          let (node, last) := afterClosing.cut (.phrase "flags") flags.length
          ([node], last)
      some (⟨.phrase "regular expression", r.offset, last.offset, false, false,
        [opening, pattern, closing] ++ flagNodes⟩, last)
  | _ => none

/-- How many characters the digits and separators of a number take. -/
def digitsLength (chars : List Char) : Nat :=
  (chars.takeWhile fun c => c.isDigit || c == '_').length

/-- How many characters an exponent takes. -/
def exponentLength (chars : List Char) : Nat :=
  match chars with
  | e :: rest =>
    if e == 'e' || e == 'E' then
      let signLength := if rest.head? == some '+' || rest.head? == some '-' then 1 else 0
      let digits := digitsLength (rest.drop signLength)
      if digits = 0 then 0 else 1 + signLength + digits
    else 0
  | [] => 0

/-- How many characters the number that begins here takes. -/
def numberLength? (chars : List Char) : Option Nat :=
  let decimal :=
    let whole := digitsLength chars
    let afterWhole := chars.drop whole
    let point := if afterWhole.head? == some '.' then 1 + digitsLength (afterWhole.drop 1) else 0
    let power := exponentLength (afterWhole.drop point)
    let big := if point = 0 && power = 0 && afterWhole.head? == some 'n' then 1 else 0
    whole + point + power + big
  match chars with
  | '0' :: b :: rest =>
    if ['x', 'X', 'o', 'O', 'b', 'B'].contains b then
      some (2 + (rest.takeWhile fun c => c.isAlphanum || c == '_').length)
    else some decimal
  | '.' :: d :: _ => if d.isDigit then some decimal else none
  | c :: _ => if c.isDigit then some decimal else none
  | [] => none

/-- The marks of more than one character that may stand in a text that fits no construct. -/
def longMarks : List String :=
  [">>>=", "...", "===", "!==", "**=", "<<=", ">>=", ">>>", "&&=", "||=", "??=", "=>", "==", "!=",
    "<=", ">=", "&&", "||", "??", "?.", "++", "--", "+=", "-=", "*=", "/=", "%=", "&=", "|=", "^=",
    "<<", ">>", "**"]

/-- The mark that begins with the first character, the longest one. -/
def scanMark (r : Rest) : Option (Node × Rest) :=
  match longMarks.find? fun text => text.toList.isPrefixOf r.chars with
  | some text => some (r.cut (.token text) text.length)
  | none => r.chars.head?.map fun c => r.cut (.token (String.singleton c)) 1

/-- Cuts the name that begins here. -/
def scanName (construct : String) (barred : List String) (r : Rest) : Option (Node × Rest) :=
  match nameHere? r.chars with
  | none => none
  | some name =>
    if barred.contains (String.ofList name) then none
    else some (r.cut (.phrase construct) name.length)

namespace Lexeme

/-- Cuts one token of a class, which must begin at once. -/
def scan (lexeme : Lexeme) (r : Rest) : Option (Node × Rest) :=
  match lexeme with
  | mark text barred =>
    if text.toList.isPrefixOf r.chars &&
        !barred.any (fun more => more.toList.isPrefixOf (r.chars.drop text.length)) then
      some (r.cut (.token text) text.length)
    else none
  | keyword text =>
    if nameHere? r.chars == some text.toList then some (r.cut (.token text) text.length) else none
  | name construct barred => scanName construct barred r
  | privateName =>
    match r.chars with
    | '#' :: rest => (nameHere? rest).map fun name =>
        r.cut (.phrase "private name") (name.length + 1)
    | _ => none
  | number => (numberLength? r.chars).map (r.cut (.phrase "number"))
  | string => scanString r
  | regularExpression => scanRegularExpression r
  | templateText =>
    let n := templateLength r.chars
    if n = 0 then none else some (r.cut (.phrase "fragment") n)
  | escape => (escapeLength? r.chars).map (r.cut (.phrase "escape"))
  | interpreterLine =>
    match r.chars with
    | '#' :: '!' :: rest =>
        some (r.cut (.phrase "interpreter line") ((rest.takeWhile (· != '\n')).length + 2))
    | _ => none
  | anything =>
    match scanString r with
    | some found => some found
    | none =>
      match numberLength? r.chars with
      | some n => some (r.cut (.phrase "number") n)
      | none =>
        match scanName "identifier" [] r with
        | some found => some found
        | none => scanMark r

end Lexeme

/-! ### Looking past brackets -/

def opensBracket (c : Char) : Bool :=
  c == '(' || c == '[' || c == '\x7b'

def closesBracket (c : Char) : Bool :=
  c == ')' || c == ']' || c == '\x7d'

/-- What remains after the bracket that closes the innermost of `depth` open ones. Strings,
templates and comments are passed over whole. -/
def afterClosing : Nat → Nat → Rest → Option Rest
  | 0, _, _ => none
  | fuel + 1, depth, r =>
    match r.chars with
    | [] => none
    | c :: rest =>
      if opensBracket c then afterClosing fuel (depth + 1) (r.advance 1)
      else if closesBracket c then
        if depth ≤ 1 then some (r.advance 1) else afterClosing fuel (depth - 1) (r.advance 1)
      else if c == '"' || c == '\'' then
        match scanString r with
        | some (_, next) => afterClosing fuel depth next
        | none => none
      else if c == '\x60' then
        let inside := rest.takeWhile (· != '\x60')
        afterClosing fuel depth (r.advance (inside.length + 2))
      else
        match commentLength? r.chars with
        | some n => afterClosing fuel depth (r.advance n)
        | none => afterClosing fuel depth (r.advance 1)

/-- Whether the bracket that opens here is closed and one of `marks` comes next. -/
def closesBefore (marks : List String) (r : Rest) : Bool :=
  let (_, r) := gap r
  match r.chars with
  | c :: _ =>
    if opensBracket c then
      match afterClosing r.chars.length 0 r with
      | none => false
      | some next =>
        let (_, next) := gap next
        marks.any fun text => text.toList.isPrefixOf next.chars
    else false
  | [] => false

end DeclarationBundle.Syntax
