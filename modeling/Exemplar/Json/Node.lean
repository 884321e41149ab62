import Exemplar.Json.Token

/-!
# Exemplar.Json.Node

JSON text as a tree that keeps the byte offsets of its parts.  A tree also stands for a text
that breaks off or goes wrong: the reader follows the tokens with a stack of open arrays and
objects, and on a fault every open container ends with what it holds so far.  Whoever walks the
tree in the order of the text meets the fault where the text has it, unless something else is
wrong before.

* `Node.parse` — the tree of a sequence of tokens, with a limit on nesting;
* `Node.ofJson` — the tree of a value, all offsets zero.
-/

namespace Exemplar

/-! ## trees -/

/-- A value without parts. -/
inductive Scalar where
  | null
  | bool (value : Bool)
  | number (value : Number)
  | string (value : String)
deriving DecidableEq

/-- The value of a scalar. -/
def Scalar.toJson : Scalar → Json
  | null => .null
  | bool value => .bool value
  | number value => .number value
  | string value => .string value

/-- A key of an object: where the comma before it starts, where the key stops, and how far the
text has been read when it is judged, which is up to the next token, and past it if that closes
the object. -/
structure Key where
  name : String
  separator : Nat
  stop : Nat
  judged : Nat
deriving DecidableEq

/-- How an array or object ends. -/
inductive Ending where
  /-- By its closing bracket. -/
  | closed (stop : Nat)
  /-- By a fault where a separator, a closing bracket or a key is expected; what follows the last
  part is unread, from the comma after that part on if there is one. -/
  | broken (error : SyntaxError) (unread : Lexemes)
  /-- By a key without a value. -/
  | keyOnly (key : Key) (error : SyntaxError)
  /-- At its opening bracket, inside too many others. -/
  | tooDeep (error : SyntaxError)
  /-- With its last part, which is incomplete. -/
  | cut

/-- A value with the offsets of its parts, or as much of it as the text has. -/
inductive Node where
  | scalar (value : Scalar) (start stop : Nat)
  | array (start : Nat) (items : List Node) (ending : Ending)
  | object (start : Nat) (entries : List (Key × Node)) (ending : Ending)
  | unread (error : SyntaxError) (rest : Lexemes)

namespace Node

/-- Where the text of a tree starts. -/
def start : Node → Nat
  | scalar _ start _ | array start _ _ | object start _ _ => start
  | unread _ rest => rest.start

mutual

/-- The tree of a value, with all offsets zero. -/
def ofJson : Json → Node
  | .null => scalar .null 0 0
  | .bool value => scalar (.bool value) 0 0
  | .number value => scalar (.number value) 0 0
  | .string value => scalar (.string value) 0 0
  | .array items => array 0 (ofItems items) (.closed 0)
  | .object entries => object 0 (ofEntries entries) (.closed 0)

/-- The trees of the items of an array. -/
def ofItems : List Json → List Node
  | [] => []
  | item :: rest => ofJson item :: ofItems rest

/-- The trees of the entries of an object. -/
def ofEntries : List (String × Json) → List (Key × Node)
  | [] => []
  | (name, value) :: rest => (⟨name, 0, 0, 0⟩, ofJson value) :: ofEntries rest

end

/-! ## reading tokens -/

/-- An open array or object with its finished parts, last first; an object waits for the value
of a key. -/
inductive Frame where
  | array (start : Nat) (done : List Node)
  | object (start : Nat) (done : List (Key × Node)) (key : Key)

/-- Ends all open containers around a part that is incomplete. -/
def unwind : List Frame → Node → Node
  | [], node => node
  | .array start done :: stack, node =>
    unwind stack (.array start (node :: done).reverse .cut)
  | .object start done key :: stack, node =>
    unwind stack (.object start ((key, node) :: done).reverse .cut)

/-- Ends an array at a fault. -/
def breakArray (stack : List Frame) (start : Nat) (done : List Node) (fault : SyntaxFault)
    (offset : Nat) (unread : Lexemes) : Node :=
  unwind stack (.array start done.reverse (.broken ⟨fault, offset⟩ unread))

/-- Ends an object at a fault. -/
def breakObject (stack : List Frame) (start : Nat) (done : List (Key × Node))
    (fault : SyntaxFault) (offset : Nat) (unread : Lexemes) : Node :=
  unwind stack (.object start done.reverse (.broken ⟨fault, offset⟩ unread))

/-- How far the text has been read when a key is judged. -/
def judgedAt : Lexemes → Nat
  | .cons .closeObject _ stop _ => stop
  | rest => rest.start

mutual

/-- Reads a value where one is expected. -/
def readValue (limit : Nat) (stack : List Frame) : Lexemes → Node
  | .finish offset => unwind stack (.unread ⟨.endOfValue, offset⟩ (.finish offset))
  | .broken start isString error => unwind stack (.unread error (.broken start isString error))
  | .cons .null start stop rest => resume limit stack (.scalar .null start stop) rest
  | .cons (.bool value) start stop rest =>
    resume limit stack (.scalar (.bool value) start stop) rest
  | .cons (.number value) start stop rest =>
    resume limit stack (.scalar (.number value) start stop) rest
  | .cons (.string value) start stop rest =>
    resume limit stack (.scalar (.string value) start stop) rest
  | .cons .openArray start _ rest =>
    if limit ≤ stack.length then
      unwind stack (.array start [] (.tooDeep ⟨.nestingLimit, start + 1⟩))
    else
      match rest with
      | .finish offset => breakArray stack start [] .endOfList offset rest
      | .cons .closeArray _ stop rest => resume limit stack (.array start [] (.closed stop)) rest
      | rest => readValue limit (.array start [] :: stack) rest
  | .cons .openObject start _ rest =>
    if limit ≤ stack.length then
      unwind stack (.object start [] (.tooDeep ⟨.nestingLimit, start + 1⟩))
    else
      match rest with
      | .finish offset => breakObject stack start [] .endOfObject offset rest
      | .cons .closeObject _ stop rest => resume limit stack (.object start [] (.closed stop)) rest
      | rest => readKey limit stack start [] start rest rest
  | .cons token start stop rest =>
    unwind stack (.unread ⟨.valueExpected, start + 1⟩ (.cons token start stop rest))

/-- Goes on after a finished value. -/
def resume (limit : Nat) (stack : List Frame) (node : Node) (rest : Lexemes) : Node :=
  match stack with
  | [] => node
  | .array start done :: stack =>
    match rest with
    | .cons .comma comma stop rest =>
      match rest with
      | .finish offset =>
        breakArray stack start (node :: done) .endOfValue offset (.cons .comma comma stop rest)
      | .cons .closeArray _ _ _ =>
        breakArray stack start (node :: done) .trailingComma rest.peek
          (.cons .comma comma stop rest)
      | rest => readValue limit (.array start (node :: done) :: stack) rest
    | .cons .closeArray _ stop rest =>
      resume limit stack (.array start (node :: done).reverse (.closed stop)) rest
    | .finish offset => breakArray stack start (node :: done) .endOfList offset rest
    | rest => breakArray stack start (node :: done) .listSeparatorExpected rest.peek rest
  | .object start done key :: stack =>
    match rest with
    | .cons .comma comma stop rest =>
      match rest with
      | .finish offset =>
        breakObject stack start ((key, node) :: done) .endOfValue offset
          (.cons .comma comma stop rest)
      | .cons .closeObject _ _ _ =>
        breakObject stack start ((key, node) :: done) .trailingComma rest.peek
          (.cons .comma comma stop rest)
      | rest =>
        readKey limit stack start ((key, node) :: done) comma (.cons .comma comma stop rest) rest
    | .cons .closeObject _ stop rest =>
      resume limit stack (.object start ((key, node) :: done).reverse (.closed stop)) rest
    | .finish offset => breakObject stack start ((key, node) :: done) .endOfObject offset rest
    | rest => breakObject stack start ((key, node) :: done) .objectSeparatorExpected rest.peek rest

/-- Reads a key and its colon where a key is expected.  If there is no key, the tokens that are
left unread start with the comma before it. -/
def readKey (limit : Nat) (stack : List Frame) (start : Nat) (done : List (Key × Node))
    (separator : Nat) (unread : Lexemes) : Lexemes → Node
  | .cons (.string name) _ stop rest =>
    let key : Key := ⟨name, separator, stop, judgedAt rest⟩
    match rest with
    | .cons .colon _ _ rest => readValue limit (.object start done key :: stack) rest
    | .finish offset =>
      unwind stack (.object start done.reverse (.keyOnly key ⟨.endOfObject, offset⟩))
    | rest => unwind stack (.object start done.reverse (.keyOnly key ⟨.colonExpected, rest.peek⟩))
  | .broken _ true error => breakObject stack start done error.fault error.offset unread
  | rest => breakObject stack start done .keyExpected rest.peek unread

end

/-- The tree of a sequence of tokens.  At most `limit` brackets may be open at once. -/
def parse (limit : Nat) (tokens : Lexemes) : Node := readValue limit [] tokens

end Node

end Exemplar
