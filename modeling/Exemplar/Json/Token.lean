import Exemplar.Decimal.Reading
import Exemplar.Json.Basic
import Exemplar.Text.Bytes

/-!
# Exemplar.Json.Token

JSON text as a sequence of tokens with the byte offsets at which they start and stop.  Blanks
between tokens are space, tab, line feed and carriage return.  The sequence ends at the end of
the text or at the first piece of text that is no token; what is wrong there, and where, is part
of the ending, because only a reader that gets so far reports it.

* `Lexeme.scan` — the tokens of a text;
* `readString`, `readNumber` — the two tokens that need more than their first character.
-/

namespace Exemplar

/-! ## faults -/

/-- What can be wrong with the form of a JSON text. -/
inductive SyntaxFault where
  | endOfValue
  | endOfList
  | endOfObject
  | endOfString
  | valueExpected
  | wordExpected
  | colonExpected
  | listSeparatorExpected
  | objectSeparatorExpected
  | trailingComma
  | trailingCharacters
  | keyExpected
  | invalidNumber
  | numberOutOfRange
  | invalidEscape
  | controlCharacter
  | loneSurrogate
  | unfinishedSurrogate
  | nestingLimit
deriving DecidableEq

/-- The wording of a fault. -/
def SyntaxFault.message : SyntaxFault → String
  | endOfValue => "EOF while parsing a value"
  | endOfList => "EOF while parsing a list"
  | endOfObject => "EOF while parsing an object"
  | endOfString => "EOF while parsing a string"
  | valueExpected => "expected value"
  | wordExpected => "expected ident"
  | colonExpected => "expected `:`"
  | listSeparatorExpected => "expected `,` or `]`"
  | objectSeparatorExpected => "expected `,` or `\x7d`"
  | trailingComma => "trailing comma"
  | trailingCharacters => "trailing characters"
  | keyExpected => "key must be a string"
  | invalidNumber => "invalid number"
  | numberOutOfRange => "number out of range"
  | invalidEscape => "invalid escape"
  | controlCharacter => "control character (\\u0000-\\u001F) found while parsing a string"
  | loneSurrogate => "lone leading surrogate in hex escape"
  | unfinishedSurrogate => "unexpected end of hex escape"
  | nestingLimit => "recursion limit exceeded"

/-- A fault and the number of bytes that had been read when it was noticed. -/
structure SyntaxError where
  fault : SyntaxFault
  offset : Nat
deriving DecidableEq

/-- A place in a text: what is left of it, and how many bytes stand before. -/
structure Cursor where
  offset : Nat
  rest : List Char

namespace Cursor

/-- The place after the given number of characters. -/
def advance (c : Cursor) (count : Nat) : Cursor :=
  ⟨c.offset + byteLength (c.rest.take count), c.rest.drop count⟩

/-- The number of bytes in the whole text. -/
def finish (c : Cursor) : Nat := c.offset + byteLength c.rest

end Cursor

/-! ## strings -/

/-- The value of a hexadecimal digit. -/
def hexValue? (c : Char) : Option Nat :=
  if '0' ≤ c ∧ c ≤ '9' then some (c.toNat - '0'.toNat)
  else if 'a' ≤ c ∧ c ≤ 'f' then some (c.toNat - 'a'.toNat + 10)
  else if 'A' ≤ c ∧ c ≤ 'F' then some (c.toNat - 'A'.toNat + 10)
  else none

/-- The value of four hexadecimal digits, and what follows them. -/
def readHexUnit (c : Cursor) : Except SyntaxError (Nat × Cursor) :=
  let stop := (c.advance 4).offset
  if stop < c.offset + 4 then .error ⟨.endOfString, stop⟩
  else
    match c.rest with
    | h₁ :: h₂ :: h₃ :: h₄ :: rest =>
      match hexValue? h₁, hexValue? h₂, hexValue? h₃, hexValue? h₄ with
      | some a, some b, some c', some d => .ok (((a * 16 + b) * 16 + c') * 16 + d, ⟨stop, rest⟩)
      | _, _, _, _ => .error ⟨.invalidEscape, c.offset + 4⟩
    | _ => .error ⟨.invalidEscape, c.offset + 4⟩

/-- A leading half of a surrogate pair. -/
def isLeadingSurrogate (unit : Nat) : Bool := 0xD800 ≤ unit && unit ≤ 0xDBFF

/-- A trailing half of a surrogate pair. -/
def isTrailingSurrogate (unit : Nat) : Bool := 0xDC00 ≤ unit && unit ≤ 0xDFFF

/-- The character spelled after a backslash and `u`, in one unit or in a surrogate pair. -/
def readCodePoint (c : Cursor) : Except SyntaxError (Char × Cursor) := do
  let (unit, c) ← readHexUnit c
  if isTrailingSurrogate unit then .error ⟨.loneSurrogate, c.offset⟩
  else if isLeadingSurrogate unit then
    match c.rest with
    | [] => .error ⟨.endOfString, c.offset⟩
    | ['\\'] => .error ⟨.endOfString, c.offset + 1⟩
    | '\\' :: 'u' :: rest => do
      let (second, c') ← readHexUnit ⟨c.offset + 2, rest⟩
      if isTrailingSurrogate second then
        return (Char.ofNat ((unit - 0xD800) * 0x400 + (second - 0xDC00) + 0x10000), c')
      else .error ⟨.loneSurrogate, c'.offset⟩
    | '\\' :: _ :: _ => .error ⟨.unfinishedSurrogate, c.offset + 2⟩
    | _ :: _ => .error ⟨.unfinishedSurrogate, c.offset + 1⟩
  else return (Char.ofNat unit, c)

/-- The character that a letter stands for after a backslash. -/
def escapedChar? : Char → Option Char
  | '"' => some '"'
  | '\\' => some '\\'
  | '/' => some '/'
  | 'b' => some '\x08'
  | 'f' => some '\x0c'
  | 'n' => some '\n'
  | 'r' => some '\r'
  | 't' => some '\t'
  | _ => none

/-- Reads a string after its opening quote.  The first argument bounds the characters read and
the second holds those read so far, last first. -/
def readString : Nat → List Char → Cursor → Except SyntaxError (String × Cursor)
  | 0, _, c => .error ⟨.endOfString, c.offset⟩
  | fuel + 1, done, c =>
    match c.rest with
    | [] => .error ⟨.endOfString, c.offset⟩
    | '"' :: rest => .ok (String.ofList done.reverse, ⟨c.offset + 1, rest⟩)
    | ['\\'] => .error ⟨.endOfString, c.offset + 1⟩
    | '\\' :: 'u' :: rest => do
      let (char, c') ← readCodePoint ⟨c.offset + 2, rest⟩
      readString fuel (char :: done) c'
    | '\\' :: letter :: rest =>
      match escapedChar? letter with
      | some char => readString fuel (char :: done) ⟨c.offset + 2, rest⟩
      | none => .error ⟨.invalidEscape, c.offset + 2⟩
    | char :: rest =>
      if char.toNat < 0x20 then .error ⟨.controlCharacter, c.offset + 1⟩
      else readString fuel (char :: done) ⟨c.offset + char.utf8Size, rest⟩

/-! ## numbers -/

/-- The value of a decimal digit. -/
def digitValue (c : Char) : Nat := c.toNat - '0'.toNat

/-- The digits at a place, and the place after them. -/
def readDigits (c : Cursor) : List Nat × Cursor :=
  let digits := c.rest.takeWhile Char.isDigit
  (digits.map digitValue, ⟨c.offset + digits.length, c.rest.dropWhile Char.isDigit⟩)

/-- Appends digits to a numeral as long as the result stays below a bound.  Also says how many
digits are left over. -/
def appendDigits (bound : Nat) (value : Nat) : List Nat → Nat × Nat
  | [] => (value, 0)
  | d :: rest =>
    if value * 10 + d < bound then appendDigits bound (value * 10 + d) rest
    else (value, rest.length + 1)

/-- Significands keep the digits that fit into 64 bits. -/
def significandBound : Nat := 18446744073709551616

/-- Exponents keep the digits that fit into 31 bits. -/
def exponentBound : Nat := 2147483648

/-- The double that the parts of a numeral stand for, read up to `c`. -/
def finishDouble (negative : Bool) (significand : Nat) (exponent : Int) (c : Cursor) :
    Except SyntaxError (Number × Cursor) :=
  match Double.ofDecimal? negative significand exponent with
  | some x => .ok (.double x, c)
  | none => .error ⟨.numberOutOfRange, c.offset⟩

/-- Reads the exponent after its `e`. -/
def readExponent (negative : Bool) (significand : Nat) (exponent : Int) (c : Cursor) :
    Except SyntaxError (Number × Cursor) :=
  let (down, c) := match c.rest with
    | '+' :: rest => (false, ⟨c.offset + 1, rest⟩)
    | '-' :: rest => (true, ⟨c.offset + 1, rest⟩)
    | _ => (false, c)
  match readDigits c with
  | ([], _) =>
    if c.rest.isEmpty then .error ⟨.endOfValue, c.offset⟩
    else .error ⟨.invalidNumber, c.offset + 1⟩
  | (digits, stop) =>
    let (value, left) := appendDigits exponentBound 0 digits
    if 0 < left ∧ significand ≠ 0 ∧ down = false then
      .error ⟨.numberOutOfRange, stop.offset + 1 - left⟩
    else
      let value : Int := if 0 < left then exponentBound else value
      finishDouble negative significand (if down then exponent - value else exponent + value) stop

/-- Reads the digits after the point. -/
def readFraction (negative : Bool) (significand : Nat) (exponent : Int) (c : Cursor) :
    Except SyntaxError (Number × Cursor) :=
  match readDigits c with
  | ([], _) =>
    if c.rest.isEmpty then .error ⟨.endOfValue, c.offset⟩
    else .error ⟨.invalidNumber, c.offset + 1⟩
  | (digits, stop) =>
    let (value, left) := appendDigits significandBound significand digits
    let exponent := exponent - (digits.length - left : Nat)
    match stop.rest with
    | 'e' :: rest | 'E' :: rest => readExponent negative value exponent ⟨stop.offset + 1, rest⟩
    | _ => finishDouble negative value exponent stop

/-- The number of an integer numeral whose digits all fit; `-0` and what no signed 64 bits hold
become doubles. -/
def finishInteger (negative : Bool) (significand : Nat) (c : Cursor) :
    Except SyntaxError (Number × Cursor) :=
  if negative = true ∧ significand = 0 then finishDouble negative significand 0 c
  else
    match Number.ofInt? (if negative then -significand else significand) with
    | some n => .ok (n, c)
    | none => finishDouble negative significand 0 c

/-- Reads a number after its sign. -/
def readUnsigned (negative : Bool) (c : Cursor) : Except SyntaxError (Number × Cursor) :=
  match readDigits c with
  | ([], _) =>
    if c.rest.isEmpty then .error ⟨.endOfValue, c.offset⟩
    else .error ⟨.invalidNumber, c.offset + 1⟩
  | (0 :: _ :: _, _) => .error ⟨.invalidNumber, c.offset + 2⟩
  | (digits, stop) =>
    let (value, left) := appendDigits significandBound 0 digits
    match stop.rest with
    | '.' :: rest => readFraction negative value left ⟨stop.offset + 1, rest⟩
    | 'e' :: rest | 'E' :: rest => readExponent negative value left ⟨stop.offset + 1, rest⟩
    | _ =>
      if left = 0 then finishInteger negative value stop
      else finishDouble negative value left stop

/-- Reads a number. -/
def readNumber (c : Cursor) : Except SyntaxError (Number × Cursor) :=
  match c.rest with
  | '-' :: rest => readUnsigned true ⟨c.offset + 1, rest⟩
  | _ => readUnsigned false c

/-! ## tokens -/

/-- A token of JSON text. -/
inductive Token where
  | openArray
  | closeArray
  | openObject
  | closeObject
  | colon
  | comma
  | null
  | bool (value : Bool)
  | number (value : Number)
  | string (value : String)
deriving DecidableEq

/-- Tokens in order, each with the offsets at which it starts and stops, up to the end of the
text or to something that is no token. -/
inductive Lexemes where
  | finish (offset : Nat)
  | broken (start : Nat) (isString : Bool) (error : SyntaxError)
  | cons (token : Token) (start stop : Nat) (rest : Lexemes)

namespace Lexemes

/-- Where the next token starts, or the text ends. -/
def start : Lexemes → Nat
  | finish offset => offset
  | broken start _ _ => start
  | cons _ start _ _ => start

/-- The offset of an error noticed at the first byte of the next token, that byte counted. -/
def peek : Lexemes → Nat
  | finish offset => offset
  | broken start _ _ => start + 1
  | cons _ start _ _ => start + 1

end Lexemes

/-- White space between tokens. -/
def isJsonBlank (c : Char) : Bool := c = ' ' || c = '\n' || c = '\t' || c = '\r'

/-- Reads the rest of a word such as `true`. -/
def readWord : List Char → Cursor → Except SyntaxError Cursor
  | [], c => .ok c
  | w :: word, c =>
    match c.rest with
    | [] => .error ⟨.endOfValue, c.offset⟩
    | d :: rest =>
      if w = d then readWord word ⟨c.offset + 1, rest⟩
      else .error ⟨.wordExpected, c.offset + 1⟩

/-- Reads the token at a place that is neither blank nor the end of the text. -/
def readToken (c : Cursor) : Except SyntaxError (Token × Cursor) :=
  let word (w : String) (token : Token) : Except SyntaxError (Token × Cursor) :=
    (readWord w.toList c).map fun c' => (token, c')
  let next : Cursor := c.advance 1
  match c.rest.head? with
  | some '[' => .ok (.openArray, next)
  | some ']' => .ok (.closeArray, next)
  | some '{' => .ok (.openObject, next)
  | some '}' => .ok (.closeObject, next)
  | some ':' => .ok (.colon, next)
  | some ',' => .ok (.comma, next)
  | some 'n' => word "null" .null
  | some 't' => word "true" (.bool true)
  | some 'f' => word "false" (.bool false)
  | some '"' => (readString (next.rest.length + 1) [] next).map fun (s, c') => (.string s, c')
  | some d =>
    if d = '-' ∨ d.isDigit then (readNumber c).map fun (n, c') => (.number n, c')
    else .error ⟨.valueExpected, c.offset + 1⟩
  | none => .error ⟨.endOfValue, c.offset⟩

/-- The tokens from a place on.  The first argument bounds their number. -/
def Lexemes.scanFrom : Nat → Cursor → Lexemes
  | 0, c => .finish c.offset
  | fuel + 1, c =>
    let blanks := (c.rest.takeWhile isJsonBlank).length
    let c : Cursor := ⟨c.offset + blanks, c.rest.dropWhile isJsonBlank⟩
    match c.rest with
    | [] => .finish c.offset
    | d :: _ =>
      match readToken c with
      | .ok (token, c') => .cons token c.offset c'.offset (scanFrom fuel c')
      | .error e => .broken c.offset (d = '"') e

/-- The tokens of a text. -/
def Lexemes.scan (text : List Char) : Lexemes := scanFrom (text.length + 1) ⟨0, text⟩

end Exemplar
