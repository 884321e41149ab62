import Exemplar.Filter.Term
import Exemplar.Filter.Token

/-!
# Exemplar.Filter.Parser

Reading a filter.  Operators bind more and more tightly in this order: `|`, `,`, `//`, `or`,
`and`, equalities, comparisons of order, sums, products, remainders; `|` groups to the right and
the others to the left.  Steps to parts and question marks follow a term at once, and a minus
sign before a term binds more tightly than any operator.  A string is the sum of its pieces.

Every function returns what it read and the tokens after it.  The first argument of each bounds
the steps.
-/

namespace Exemplar.Filter

/-! ## operators -/

namespace Operator

/-- How tightly an operator binds. -/
def level : Operator → Nat
  | pipe => 0
  | comma => 1
  | alternative => 3
  | disjunction => 4
  | conjunction => 5
  | comparison .eq | comparison .ne => 6
  | comparison _ => 7
  | arithmetic .add | arithmetic .sub => 8
  | arithmetic .mul | arithmetic .div => 9
  | arithmetic .rem => 10

/-- The operators that are written with signs. -/
def signs : List (String × Operator) :=
  [("|", pipe), ("//", alternative),
   ("==", comparison .eq), ("!=", comparison .ne), ("<", comparison .lt), ("<=", comparison .le),
   (">", comparison .gt), (">=", comparison .ge),
   ("+", arithmetic .add), ("-", arithmetic .sub), ("*", arithmetic .mul),
   ("/", arithmetic .div), ("%", arithmetic .rem)]

/-- The operator that a token stands for. -/
def ofToken? (withComma : Bool) : Token → Option Operator
  | .sign s => Json.entry? signs s
  | .word "or" => some disjunction
  | .word "and" => some conjunction
  | .mark ',' => if withComma then some comma else none
  | _ => none

/-- Groups terms with operators between them.  The first argument bounds the operators. -/
def group : Nat → Term → List (Operator × Term) → Term
  | 0, head, _ | _, head, [] => head
  | fuel + 1, head, tail =>
    let levels := tail.map (·.1.level)
    let least := levels.foldl min 10
    let position :=
      if least = 0 then levels.findIdx (· = 0)
      else levels.length - 1 - levels.reverse.findIdx (· = least)
    match tail.drop position with
    | [] => head
    | (op, next) :: after =>
      .binary op (group fuel head (tail.take position)) (group fuel next after)

end Operator

/-! ## terms -/

/-- Words that no call begins with. -/
def keywords : List String := ["def", "if", "try", "reduce", "foreach", "label", "break"]

/-- Words that no filter begins with. -/
def openingWords : List String := ["module", "import", "include"]

/-- The step by a key that is written out. -/
def keyStep (name : String) : Step := .index (.literal (.string name))

/-- The term with the given steps, or itself without any. -/
def withSteps (base : Term) : List (Step × Bool) → Term
  | [] => base
  | steps => .path base (Steps.ofList steps)

/-- The sum of terms, or a value without any. -/
def sumOf (empty : Value) : List Term → Term
  | [] => .literal empty
  | first :: rest => rest.foldl (fun left right => .binary (.arithmetic .add) left right) first

/-- The text of what a term gives, as it stands in a string. -/
def textIn (term : Term) : Term := .binary .pipe term (.call "tostring" .none)

/-- The entry for a variable, under its name without the sign before it. -/
def referenceEntry (name : String) : Term :=
  .entry (.literal (.string (String.ofList (name.toList.drop 1)))) (.reference name)

/-- Passes over a mark. -/
def expectMark (c : Char) : List Token → Except FormFault (List Token)
  | .mark d :: rest => if c = d then .ok rest else .error (.expected c.toString)
  | _ => .error (.expected c.toString)

/-- Passes over a keyword. -/
def expectWord (name : String) : List Token → Except FormFault (List Token)
  | .word other :: rest => if name = other then .ok rest else .error (.expected name)
  | _ => .error (.expected name)

mutual

/-- Reads terms with operators between them. -/
def readTerm (withComma : Bool) : Nat → List Token → Except FormFault (Term × List Token)
  | 0, _ => .error .termExpected
  | fuel + 1, tokens => do
    let (head, rest) ← readOperand fuel tokens
    let (tail, rest) ← readTail withComma fuel rest
    return (Operator.group tail.length head tail, rest)

/-- Reads operators, each with the term after it. -/
def readTail (withComma : Bool) :
    Nat → List Token → Except FormFault (List (Operator × Term) × List Token)
  | 0, _ => .error .termExpected
  | _ + 1, [] => .ok ([], [])
  | fuel + 1, token :: tokens =>
    match Operator.ofToken? withComma token with
    | none => .ok ([], token :: tokens)
    | some op => do
      let (term, rest) ← readOperand fuel tokens
      let (tail, rest) ← readTail withComma fuel rest
      return ((op, term) :: tail, rest)

/-- Reads a term between operators. -/
def readOperand : Nat → List Token → Except FormFault (Term × List Token)
  | 0, _ => .error .termExpected
  | fuel + 1, .sign "-" :: tokens => do
    let (term, rest) ← readOperand fuel tokens
    return (.negation term, rest)
  | fuel + 1, tokens => do
    let (base, rest) ← readBase fuel tokens
    readSteps base [] fuel rest

/-- Reads a term without the steps after it. -/
def readBase : Nat → List Token → Except FormFault (Term × List Token)
  | 0, _ => .error .termExpected
  | _ + 1, .number value :: rest => .ok (.literal value, rest)
  | fuel + 1, .text pieces :: rest => do return (← readText fuel pieces, rest)
  | _ + 1, .reference name :: rest => .ok (.reference name, rest)
  | _ + 1, .points :: rest => .ok (.parts, rest)
  | _ + 1, .field name :: rest => .ok (.identity, .field name :: rest)
  | _ + 1, .point :: .text pieces :: rest => .ok (.identity, .point :: .text pieces :: rest)
  | _ + 1, .point :: rest => .ok (.identity, rest)
  | fuel + 1, .mark '(' :: rest => do
    let (term, rest) ← readTerm true fuel rest
    return (term, ← expectMark ')' rest)
  | _ + 1, .mark '[' :: .mark ']' :: rest => .ok (.literal (.array []), rest)
  | fuel + 1, .mark '[' :: rest => do
    let (term, rest) ← readTerm true fuel rest
    return (.array term, ← expectMark ']' rest)
  | _ + 1, .mark '{' :: .mark '}' :: rest => .ok (.literal (.object []), rest)
  | fuel + 1, .mark '{' :: rest => do
    let (entries, rest) ← readEntries fuel rest
    return (sumOf (.object []) entries, rest)
  | fuel + 1, .word "if" :: rest => readConditional fuel rest
  | fuel + 1, .word name :: rest =>
    if name ∈ keywords then .error .termExpected
    else
      match rest with
      | .mark '(' :: rest => do
        let (arguments, rest) ← readArguments fuel rest
        return (.call name (.ofList arguments), rest)
      | rest => .ok (.call name .none, rest)
  | _ + 1, _ => .error .termExpected

/-- Reads the filters in a string. -/
def readText : Nat → List Piece → Except FormFault Term
  | 0, _ => .error .termExpected
  | fuel + 1, pieces => do return sumOf (.string "") (← readPieces fuel pieces)

/-- Reads the pieces of a string. -/
def readPieces : Nat → List Piece → Except FormFault (List Term)
  | 0, _ => .error .termExpected
  | _ + 1, [] => .ok []
  | fuel + 1, .chars value :: rest => do
    return .literal (.string value) :: (← readPieces fuel rest)
  | fuel + 1, .filter tokens :: rest => do
    let (term, left) ← readTerm true fuel tokens
    if left.isEmpty then return textIn term :: (← readPieces fuel rest)
    else .error .leftOver

/-- Reads a condition and what follows it, after its `if` or `elif`. -/
def readConditional : Nat → List Token → Except FormFault (Term × List Token)
  | 0, _ => .error .termExpected
  | fuel + 1, tokens => do
    let (test, rest) ← readTerm true fuel tokens
    let (yes, rest) ← readTerm true fuel (← expectWord "then" rest)
    match rest with
    | .word "elif" :: rest =>
      let (no, rest) ← readConditional fuel rest
      return (.conditional test yes no, rest)
    | .word "else" :: rest =>
      let (no, rest) ← readTerm true fuel rest
      return (.conditional test yes no, ← expectWord "end" rest)
    | rest => return (.conditional test yes .identity, ← expectWord "end" rest)

/-- Reads arguments up to the closing bracket. -/
def readArguments : Nat → List Token → Except FormFault (List Term × List Token)
  | 0, _ => .error .termExpected
  | fuel + 1, tokens => do
    let (first, rest) ← readTerm true fuel tokens
    match rest with
    | .mark ';' :: rest =>
      let (others, rest) ← readArguments fuel rest
      return (first :: others, rest)
    | rest => return ([first], ← expectMark ')' rest)

/-- Reads the entries of an object up to the closing brace; a comma may stand before it. -/
def readEntries : Nat → List Token → Except FormFault (List Term × List Token)
  | 0, _ => .error .termExpected
  | fuel + 1, tokens => do
    let (first, rest) ← readEntry fuel tokens
    match rest with
    | .mark ',' :: .mark '}' :: rest => return ([first], rest)
    | .mark ',' :: rest =>
      let (others, rest) ← readEntries fuel rest
      return (first :: others, rest)
    | rest => return ([first], ← expectMark '}' rest)

/-- Reads an entry of an object. -/
def readEntry : Nat → List Token → Except FormFault (Term × List Token)
  | 0, _ => .error .termExpected
  | fuel + 1, .mark '(' :: rest => do
    let (key, rest) ← readTerm true fuel rest
    let rest ← expectMark ')' rest
    let (value, rest) ← readTerm false fuel (← expectMark ':' rest)
    return (.entry key value, rest)
  | fuel + 1, .word name :: rest => readEntryValue fuel (.literal (.string name)) rest
  | fuel + 1, .text pieces :: rest => do readEntryValue fuel (← readText fuel pieces) rest
  | fuel + 1, .reference name :: rest =>
    match rest with
    | .mark ':' :: _ => readEntryValue fuel (.reference name) rest
    | rest => .ok (referenceEntry name, rest)
  | _ + 1, _ => .error .termExpected

/-- Reads the value of an entry after its key, if there is one. -/
def readEntryValue : Nat → Term → List Token → Except FormFault (Term × List Token)
  | 0, _, _ => .error .termExpected
  | fuel + 1, key, .mark ':' :: rest => do
    let (value, rest) ← readTerm false fuel rest
    return (.entry key value, rest)
  | _ + 1, key, rest => .ok (.shortEntry key, rest)

/-- Reads the steps after a term; those read so far are given last first. -/
def readSteps (base : Term) (done : List (Step × Bool)) :
    Nat → List Token → Except FormFault (Term × List Token)
  | 0, _ => .error .termExpected
  | fuel + 1, .field name :: rest => readSteps base ((keyStep name, false) :: done) fuel rest
  | fuel + 1, .point :: .text pieces :: rest => do
    readSteps base ((.index (← readText fuel pieces), false) :: done) fuel rest
  | fuel + 1, .mark '[' :: rest => do
    let (step, rest) ← readBrackets fuel rest
    readSteps base ((step, false) :: done) fuel rest
  | fuel + 1, .mark '?' :: rest =>
    match done with
    | [] => readSteps (.optional base) [] fuel rest
    | (step, _) :: done => readSteps base ((step, true) :: done) fuel rest
  | _ + 1, rest => .ok (withSteps base done.reverse, rest)

/-- Reads what stands in brackets after a term, and the closing bracket. -/
def readBrackets : Nat → List Token → Except FormFault (Step × List Token)
  | 0, _ => .error .termExpected
  | _ + 1, .mark ']' :: rest => .ok (.items, rest)
  | fuel + 1, .mark ':' :: rest => do
    let (last, rest) ← readTerm true fuel rest
    return (.sliceTo last, ← expectMark ']' rest)
  | fuel + 1, tokens => do
    let (first, rest) ← readTerm true fuel tokens
    match rest with
    | .mark ':' :: .mark ']' :: rest => return (.sliceFrom first, rest)
    | .mark ':' :: rest =>
      let (last, rest) ← readTerm true fuel rest
      return (.slice first last, ← expectMark ']' rest)
    | rest => return (.index first, ← expectMark ']' rest)

end

/-- The filter that a text spells. -/
def Term.parse (text : String) : Except FormFault Term := do
  let tokens ← Token.scan text
  if let .word name :: _ := tokens then
    if name ∈ openingWords then .error (.expected "a filter")
  let (term, rest) ← readTerm true (8 * text.length + 8) tokens
  if rest.isEmpty then return term
  else .error .leftOver

end Exemplar.Filter
