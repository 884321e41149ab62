import Exemplar.Text.Split

/-!
# Exemplar.Glob.Pattern

Patterns for names of files.  `?` stands for any character, `*` for any number of them, `[abc]`
and `[a-z]` for one of a set, `[!abc]` for one outside of it.  `**` stands for any number of
directories and has to be a whole part of a path.  Every other character stands for itself, the
brace among them.

* `Glob.compile` — a pattern from its text, or where the text goes wrong;
* `Glob.fits` — a name fits a pattern.
-/

namespace Exemplar.Glob

/-! ## tokens -/

/-- A range of characters, both ends included. -/
structure CharRange where
  first : Char
  last : Char
deriving DecidableEq

/-- A part of a pattern. -/
inductive Token where
  | char (c : Char)
  | anyChar
  | anyRun
  | anyDirectories
  | within (ranges : List CharRange)
  | except (ranges : List CharRange)
deriving DecidableEq

/-- What is wrong with a pattern. -/
inductive PatternFault where
  | wildcards
  | recursiveWildcards
  | range
deriving DecidableEq

/-- The wording of a fault. -/
def PatternFault.message : PatternFault → String
  | wildcards => "wildcards are either regular `*` or recursive `**`"
  | recursiveWildcards => "recursive wildcards must form a single path component"
  | range => "invalid range pattern"

/-- A fault and the number of characters before it. -/
structure PatternError where
  position : Nat
  fault : PatternFault
deriving DecidableEq

/-- The wording of an error. -/
def PatternError.message (e : PatternError) : String :=
  s!"Pattern syntax error near position {e.position}: " ++ e.fault.message

/-! ## reading -/

/-- The ranges between brackets. -/
def readRanges : List Char → List CharRange
  | first :: '-' :: last :: rest => ⟨first, last⟩ :: readRanges rest
  | c :: rest => ⟨c, c⟩ :: readRanges rest
  | [] => []

/-- What stands before the closing bracket, and after it.  The first character is never taken
for the bracket. -/
def untilBracket : List Char → Option (List Char × List Char)
  | [] => none
  | first :: rest =>
    match rest.dropWhile (· ≠ ']') with
    | _ :: after => some (first :: rest.takeWhile (· ≠ ']'), after)
    | [] => none

/-- Reads a set after its opening bracket. -/
def readSet : List Char → Option (Token × List Char)
  | '!' :: rest => (untilBracket rest).map fun (inner, after) => (.except (readRanges inner), after)
  | rest => (untilBracket rest).map fun (inner, after) => (.within (readRanges inner), after)

/-- Reads a pattern from the given position on; `previous` is the character before it.  The
first argument bounds the number of tokens. -/
def readTokens : Nat → Nat → Option Char → List Char → Except PatternError (List Token)
  | 0, _, _, _ => .ok []
  | _ + 1, _, _, [] => .ok []
  | fuel + 1, position, previous, '*' :: rest =>
    let more := (rest.takeWhile (· = '*')).length
    let after := rest.drop more
    let stop := position + 1 + more
    if more = 0 then do
      let tokens ← readTokens fuel stop (some '*') after
      return .anyRun :: tokens
    else if 1 < more then .error ⟨position + 2, .wildcards⟩
    else if previous ≠ none ∧ previous ≠ some '/' then
      .error ⟨position - 1, .recursiveWildcards⟩
    else
      match after with
      | [] => .ok [.anyDirectories]
      | '/' :: after => do
        let tokens ← readTokens fuel (stop + 1) (some '/') after
        return .anyDirectories :: tokens
      | _ => .error ⟨stop, .recursiveWildcards⟩
  | fuel + 1, position, _, '?' :: rest => do
    let tokens ← readTokens fuel (position + 1) (some '?') rest
    return .anyChar :: tokens
  | fuel + 1, position, _, '[' :: rest =>
    match readSet rest with
    | none => .error ⟨position, .range⟩
    | some (set, after) => do
      let stop := position + 1 + (rest.length - after.length)
      let tokens ← readTokens fuel stop (some ']') after
      return set :: tokens
  | fuel + 1, position, _, c :: rest => do
    let tokens ← readTokens fuel (position + 1) (some c) rest
    return .char c :: tokens

/-- The tokens of a text. -/
def compile (text : List Char) : Except PatternError (List Token) :=
  readTokens (text.length + 1) 0 none text

/-! ## matching -/

/-- A character lies in one of the ranges. -/
def inCharRanges (ranges : List CharRange) (c : Char) : Bool :=
  ranges.any fun range => range.first ≤ c && c ≤ range.last

/-- A name fits the tokens. -/
def fits : List Token → List Char → Bool
  | [], name => name.isEmpty
  | .anyRun :: tokens, [] | .anyDirectories :: tokens, [] => fits tokens []
  | .anyRun :: tokens, c :: name | .anyDirectories :: tokens, c :: name =>
    fits tokens (c :: name) || fits (.anyRun :: tokens) name
  | _ :: _, [] => false
  | .char d :: tokens, c :: name => c = d && fits tokens name
  | .anyChar :: tokens, _ :: name => fits tokens name
  | .within ranges :: tokens, c :: name => inCharRanges ranges c && fits tokens name
  | .except ranges :: tokens, c :: name => !inCharRanges ranges c && fits tokens name
termination_by tokens name => (tokens.length, name.length)

end Exemplar.Glob
