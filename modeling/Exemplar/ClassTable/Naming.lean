import Exemplar.Json.Basic
import Exemplar.Name
import Exemplar.Ty.Basic
import Exemplar.TypeTerm.Basic

/-!
# Exemplar.ClassTable.Naming

What the names in a written type mean.  A name without arguments can be a primitive type or a
type parameter in scope.  A name with a dot is the class of that name.  A name without a dot is
a class of `java.lang` if one is known, or else the only class with that simple name; a name
that fits no class or several stands for itself.

Simple names are looked up in one of two ways.  While a table is made, they are looked up in an
index of all names, which is filled before.  The names of a finished table are gone through one by
one, up to the second hit.

* `qualify` — the class that a name stands for;
* `SimpleNames` — the index of simple names;
* `onlyHit?` — the search without an index;
* `TypeTerm.resolve` — the type that a written type means.
-/

namespace Exemplar

/-- The primitive types. -/
def primitiveNames : List String :=
  ["byte", "short", "int", "long", "float", "double", "boolean", "char", "void"]

/-- The simple names of `java.lang` that need no declaration. -/
def javaLangNames : List String :=
  ["Object", "String", "CharSequence", "StringBuilder", "StringBuffer",
   "Byte", "Short", "Integer", "Long", "Float", "Double", "Number",
   "Boolean", "Character", "Void", "Class", "Iterable", "Enum"]

/-- How the names of classes are looked up. -/
@[ext]
structure NameLookup where
  /-- There is a class of the name. -/
  isDeclared : String → Bool
  /-- The only class with the simple name. -/
  bySimpleName? : String → Option String

/-- The class that a name without type parameters in its way stands for. -/
def qualify (known : NameLookup) (name : String) : String :=
  if '.' ∈ name.toList then name
  else bif known.isDeclared ("java.lang." ++ name) || name ∈ javaLangNames then "java.lang." ++ name
  else (known.bySimpleName? name).getD name

/-! ## simple names -/

/-- The names of classes by their simple names. -/
structure SimpleNames where
  hits : List (String × List String)

namespace SimpleNames

/-- The class names with a simple name, in the order in which they were added. -/
def namesOf (index : SimpleNames) (simple : String) : List String :=
  match Json.entry? index.hits simple with
  | none => []
  | some names => names

/-- Adds a class name behind those with the same simple name. -/
def add (index : SimpleNames) (name : String) : SimpleNames :=
  let simple := simpleName name
  ⟨Json.insertEntry simple (index.namesOf simple ++ [name]) index.hits⟩

/-- The index of class names. -/
def ofNames (names : List String) : SimpleNames := names.foldl add ⟨[]⟩

/-- The class name that is the only one under a simple name. -/
def unique? (index : SimpleNames) (simple : String) : Option String :=
  match Json.entry? index.hits simple with
  | some [name] => some name
  | _ => none

end SimpleNames

/-- The first of the class names with a simple name, and the names behind it. -/
def nextHit? (simple : String) : List String → Option (String × List String)
  | [] => none
  | name :: rest => if simpleName name = simple then some (name, rest) else nextHit? simple rest

/-- The first of the class names with a simple name, if there is no second one. -/
def onlyHit? (names : List String) (simple : String) : Option String :=
  match nextHit? simple names with
  | none => none
  | some (name, rest) =>
    match nextHit? simple rest with
    | none => some name
    | some _ => none

/-- Class names are looked up in a list of names that is gone through one by one. -/
def NameLookup.ofNames (names : List String) : NameLookup where
  isDeclared name := name ∈ names
  bySimpleName? := onlyHit? names

namespace TypeTerm

mutual

/-- The type that a term means among the classes that are known, with type parameters in scope. -/
def resolve (known : NameLookup) (scope : List String) : TypeTerm → Ty
  | array item => .array (item.resolve known scope)
  | wildcard => .wildcard
  | bounded bound => .bounded (bound.resolve known scope)
  | named name args =>
    if args.isEmpty ∧ name ∈ primitiveNames then .primitive name
    else if args.isEmpty ∧ name ∈ scope then .param name
    else .named (qualify known name) (resolveList known scope args)

/-- The types that terms mean. -/
def resolveList (known : NameLookup) (scope : List String) : List TypeTerm → List Ty
  | [] => []
  | term :: rest => term.resolve known scope :: resolveList known scope rest

end

end TypeTerm

/-! ## nesting -/

/-- The declared class that a class is directly nested in: its longest declared prefix. -/
def enclosingName? (names : List String) (name : String) : Option String :=
  (dottedPrefixes name).find? (· ∈ names)

/-- All declared classes that a class is nested in, innermost first. -/
def enclosingNames (names : List String) (name : String) : List String :=
  (dottedPrefixes name).filter (· ∈ names)

end Exemplar
