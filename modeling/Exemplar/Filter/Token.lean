import Exemplar.Filter.Value
import Exemplar.Json.Token
import Exemplar.Text.Blank

/-!
# Exemplar.Filter.Token

The tokens of a filter text.  An operator is one sign and the equality signs and slashes that
stand right after it; a point and a name without anything between them are one token, too.  A
string is a token that holds the tokens of the filters in it.  Blanks and comments separate
tokens and mean nothing else.  A comment goes from `#` to the end of the line, and goes on in the
next line after an odd number of backslashes.
-/

namespace Exemplar.Filter

mutual

/-- A token of a filter text. -/
inductive Token where
  /-- A name or a keyword. -/
  | word (name : String)
  /-- A name behind `$`. -/
  | reference (name : String)
  | number (value : Value)
  /-- A string. -/
  | text (pieces : List Piece)
  /-- A name behind a point. -/
  | field (name : String)
  | point
  | points
  /-- The signs of an operator. -/
  | sign (signs : String)
  /-- A comma, colon, semicolon, question mark or bracket. -/
  | mark (c : Char)

/-- A piece of a string: characters, or a filter in brackets behind a backslash. -/
inductive Piece where
  | chars (value : String)
  | filter (tokens : List Token)

end

/-- What is wrong with the form of a filter text. -/
inductive FormFault where
  | unknownCharacter (c : Char)
  | unfinishedText
  | invalidEscape
  | digitExpected
  | nameExpected
  | termExpected
  | expected (what : String)
  | leftOver
deriving DecidableEq

/-- The wording of a fault. -/
def FormFault.message : FormFault → String
  | unknownCharacter c => "unknown character `" ++ c.toString ++ "`"
  | unfinishedText => "a string has no end"
  | invalidEscape => "invalid escape in a string"
  | digitExpected => "a digit is expected"
  | nameExpected => "a name is expected"
  | termExpected => "a filter is expected"
  | expected what => what ++ " is expected"
  | leftOver => "there is something after the filter"

namespace Token

/-! ## characters -/

/-- A character that a name may begin with. -/
def isNameStart (c : Char) : Bool := c.isAlpha || c = '_'

/-- A character that a name may go on with. -/
def isNamePart (c : Char) : Bool := c.isAlphanum || c = '_'

/-- A character that operators begin with. -/
def isSign (c : Char) : Bool := "|=!<>+-*/%".toList.contains c

/-- A character that operators go on with. -/
def isSignPart (c : Char) : Bool := c = '=' || c = '/'

/-- A character that is a token by itself. -/
def isMark (c : Char) : Bool := ",:;?()[]".toList.contains c || c = '\x7b' || c = '\x7d'

/-- A character that stands for itself in a string. -/
def isTextPart (c : Char) : Bool := c ≠ '"' && c ≠ '\\'

/-! ## numbers and texts -/

/-- The value of a numeral.  Digits alone are a whole number, unless it is too large. -/
def numberValue (numeral : List Char) : Value :=
  if numeral.all Char.isDigit then
    let value := numeral.foldl (fun n d => n * 10 + (d.toNat - '0'.toNat)) 0
    if value < 9223372036854775808 then .int value else .numeral (String.ofList numeral)
  else .numeral (String.ofList numeral)

/-- Reads digits, at least one. -/
def readDigits (s : List Char) : Except FormFault (List Char × List Char) :=
  match s.takeWhile Char.isDigit with
  | [] => .error .digitExpected
  | digits => .ok (digits, s.dropWhile Char.isDigit)

/-- Reads the fraction of a numeral, if there is one. -/
def readFraction : List Char → Except FormFault (List Char × List Char)
  | '.' :: rest => do
    let (digits, rest) ← readDigits rest
    return ('.' :: digits, rest)
  | rest => .ok ([], rest)

/-- Reads the exponent of a numeral, if there is one. -/
def readExponent : List Char → Except FormFault (List Char × List Char)
  | [] => .ok ([], [])
  | c :: rest =>
    if c = 'e' ∨ c = 'E' then do
      let (direction, rest) := match rest with
        | '+' :: rest => (['+'], rest)
        | '-' :: rest => (['-'], rest)
        | rest => ([], rest)
      let (digits, rest) ← readDigits rest
      return (c :: direction ++ digits, rest)
    else .ok ([], c :: rest)

/-- Reads a numeral: digits, a fraction, an exponent. -/
def readNumeral (s : List Char) : Except FormFault (List Char × List Char) := do
  let (fraction, rest) ← readFraction (s.dropWhile Char.isDigit)
  let (exponent, rest) ← readExponent rest
  return (s.takeWhile Char.isDigit ++ fraction ++ exponent, rest)

/-- The character that four hexadecimal digits spell, if they spell one. -/
def readUnicode? : List Char → Option (Char × List Char)
  | a :: b :: c :: d :: rest => do
    let code := (((← hexValue? a) * 16 + (← hexValue? b)) * 16 + (← hexValue? c)) * 16
      + (← hexValue? d)
    if code.isValidChar then some (Char.ofNat code, rest) else none
  | _ => none

/-- Reads what follows a backslash in a string, unless it is a filter. -/
def readEscape : List Char → Except FormFault (Char × List Char)
  | [] => .error .invalidEscape
  | letter :: rest =>
    if letter = 'u' then
      match readUnicode? rest with
      | some result => .ok result
      | none => .error .invalidEscape
    else
      match escapedChar? letter with
      | some c => .ok (c, rest)
      | none => .error .invalidEscape

/-! ## tokens -/

/-- The text after a comment, which is given without its `#`.  The first argument bounds the
lines. -/
def afterComment : Nat → List Char → List Char
  | 0, s => s
  | fuel + 1, s =>
    let line := match (s.takeWhile (· ≠ '\n')).reverse with
      | '\r' :: line => line
      | line => line
    let rest := (s.dropWhile (· ≠ '\n')).drop 1
    if (line.takeWhile (· = '\\')).length % 2 = 0 then rest else afterComment fuel rest

/-- Reads one token that is no string, at a character that is not blank. -/
def readOne (c : Char) (rest : List Char) : Except FormFault (Token × List Char) :=
  let name (s : List Char) : String := String.ofList (s.takeWhile isNamePart)
  if isNameStart c then .ok (word (name (c :: rest)), rest.dropWhile isNamePart)
  else if c.isDigit then do
    let (numeral, rest) ← readNumeral (c :: rest)
    return (number (numberValue numeral), rest)
  else if c = '.' then
    match rest with
    | '.' :: rest => .ok (points, rest)
    | d :: rest =>
      if isNameStart d then .ok (field (name (d :: rest)), rest.dropWhile isNamePart)
      else .ok (point, d :: rest)
    | [] => .ok (point, [])
  else if c = '$' then
    if rest.head?.any isNameStart then
      .ok (reference ("$" ++ name rest), rest.dropWhile isNamePart)
    else .error .nameExpected
  else if isSign c then
    .ok (sign (String.ofList (c :: rest.takeWhile isSignPart)), rest.dropWhile isSignPart)
  else if isMark c then .ok (mark c, rest)
  else .error (.unknownCharacter c)

mutual

/-- Reads tokens up to the end of the text, or up to a closing round bracket that has no opening
one among them.  The first argument bounds the steps and the second counts the round brackets
that are open. -/
def scanFrom : Nat → Nat → List Char → Except FormFault (List Token × List Char)
  | 0, _, _ | _, _, [] => .ok ([], [])
  | fuel + 1, depth, c :: rest =>
    if c = '#' then scanFrom fuel depth (afterComment (rest.length + 1) rest)
    else if isBlank c then scanFrom fuel depth rest
    else if c = '"' then do
      let (pieces, rest) ← scanText fuel rest
      let (tokens, rest) ← scanFrom fuel depth rest
      return (text pieces :: tokens, rest)
    else if c = ')' ∧ depth = 0 then .ok ([], c :: rest)
    else do
      let (token, rest) ← readOne c rest
      let depth := if c = '(' then depth + 1 else if c = ')' then depth - 1 else depth
      let (tokens, rest) ← scanFrom fuel depth rest
      return (token :: tokens, rest)

/-- Reads a string after its opening quote. -/
def scanText : Nat → List Char → Except FormFault (List Piece × List Char)
  | 0, _ | _, [] => .error .unfinishedText
  | _ + 1, '"' :: rest => .ok ([], rest)
  | fuel + 1, '\\' :: '(' :: rest => do
    match ← scanFrom fuel 0 rest with
    | (tokens, ')' :: rest) =>
      let (pieces, rest) ← scanText fuel rest
      return (.filter tokens :: pieces, rest)
    | _ => .error (.expected ")")
  | fuel + 1, '\\' :: rest => do
    let (c, rest) ← readEscape rest
    let (pieces, rest) ← scanText fuel rest
    return (.chars c.toString :: pieces, rest)
  | fuel + 1, c :: rest => do
    let (pieces, after) ← scanText fuel (rest.dropWhile isTextPart)
    return (.chars (String.ofList (c :: rest.takeWhile isTextPart)) :: pieces, after)

end

/-- The tokens of a text. -/
def scan (text : String) : Except FormFault (List Token) := do
  match ← scanFrom (text.toList.length + 1) 0 text.toList with
  | (tokens, []) => return tokens
  | _ => .error .leftOver

end Token

end Exemplar.Filter
