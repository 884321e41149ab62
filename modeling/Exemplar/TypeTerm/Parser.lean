import Exemplar.Name
import Exemplar.Text.Alphanumeric
import Exemplar.Text.Blank
import Exemplar.Text.Bytes
import Exemplar.TypeTerm.Basic

/-!
# Exemplar.TypeTerm.Parser

Reading a written type.  A type is a name with optional arguments in angle brackets, or a
wildcard with an optional bound, followed by array suffixes; blanks may stand between tokens,
but `<` follows its name at once and a bound keyword is followed by a blank.

Every function returns what it read and the rest of the text.  A name takes all letters, digits,
`_`, `$` and dots that follow, of any script, and is then checked to be a qualified name.
-/

namespace Exemplar

namespace TypeTerm

/-- A character that belongs to the name being read. -/
def isNamePart (c : Char) : Bool := isAlphanumeric c || c = '_' || c = '$' || c = '.'

/-- The text after `s` when it starts with the letters of `word`. -/
def afterWord : List Char → List Char → Option (List Char)
  | [], s => some s
  | w :: word, c :: s => if w = c then afterWord word s else none
  | _ :: _, [] => none

/-- What follows a bound keyword; the keyword counts only with a blank after it. -/
def afterBoundKeyword (s : List Char) : Option (List Char) :=
  let followed (word : String) : Option (List Char) :=
    match afterWord word.toList s with
    | some (c :: rest) => if isBlank c then some (c :: rest) else none
    | _ => none
  (followed "extends").or (followed "super")

/-- Reads a name; `len` is the length of the whole text in bytes. -/
def readName (len : Nat) (s : List Char) : Except TypeFault (String × List Char) :=
  let name := String.ofList (s.takeWhile isNamePart)
  if isQualifiedName name then .ok (name, s.dropWhile isNamePart)
  else if name.isEmpty then .error (.nameExpected (len - byteLength s))
  else .error (.invalidName name)

/-- Reads array suffixes, each of which wraps what stands before it. -/
def readSuffixes (item : TypeTerm) (s : List Char) : Except TypeFault (TypeTerm × List Char) :=
  match _opening : skipBlanks s with
  | '[' :: rest =>
    match _closing : skipBlanks rest with
    | ']' :: rest' => readSuffixes (.array item) rest'
    | _ => .error .bracketExpected
  | rest => .ok (item, rest)
termination_by s.length
decreasing_by
  have h := length_skipBlanks_le s
  have h' := length_skipBlanks_le rest
  simp only [_opening, _closing, List.length_cons] at h h'
  omega

mutual

/-- Reads a type.  The second argument bounds the steps; three for each character suffice. -/
def read (len : Nat) : Nat → List Char → Except TypeFault (TypeTerm × List Char)
  | 0, s => .error (.nameExpected (len - byteLength s))
  | fuel + 1, s => do
    let (head, rest) ← readHead len fuel (skipBlanks s)
    readSuffixes head rest

/-- Reads a wildcard, or a name with its arguments. -/
def readHead (len : Nat) : Nat → List Char → Except TypeFault (TypeTerm × List Char)
  | 0, s => .error (.nameExpected (len - byteLength s))
  | fuel + 1, '?' :: rest =>
    match afterBoundKeyword (skipBlanks rest) with
    | none => .ok (.wildcard, skipBlanks rest)
    | some rest' => do
      let (bound, rest'') ← read len fuel rest'
      return (.bounded bound, rest'')
  | fuel + 1, s => do
    let (name, rest) ← readName len s
    match rest with
    | '<' :: rest' =>
      let (args, rest'') ← readArgs len fuel rest'
      return (.named name args, rest'')
    | _ => return (.named name [], rest)

/-- Reads the arguments after `<`, up to and including the `>` that closes them. -/
def readArgs (len : Nat) : Nat → List Char → Except TypeFault (List TypeTerm × List Char)
  | 0, s => .error (.nameExpected (len - byteLength s))
  | fuel + 1, s => do
    let (arg, rest) ← read len fuel s
    match skipBlanks rest with
    | ',' :: rest' =>
      let (args, rest'') ← readArgs len fuel rest'
      return (arg :: args, rest'')
    | '>' :: rest' => return ([arg], rest')
    | _ => .error .separatorExpected

end

/-- Reads a text that holds one type and blanks around it. -/
def parse (text : String) : Except TypeFault TypeTerm := do
  let s := text.toList
  let len := byteLength s
  let (term, rest) ← read len (3 * s.length + 3) s
  match skipBlanks rest with
  | [] => return term
  | c :: rest' => .error (.unexpected c (len - byteLength (c :: rest')))

end TypeTerm

end Exemplar
