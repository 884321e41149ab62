import Exemplar.ClassTable.Basic
import Exemplar.ClassTable.Naming
import Exemplar.ClassTable.Prelude
import Exemplar.TypeTerm.Parser

/-!
# Exemplar.ClassTable.Build

Making a class table from declarations.  All names are checked first: each is a qualified name,
and no two are equal.  Then the types of each class are read in order, supertypes before fields,
and in a field the type before the initializer, which has to be a scalar.  The first fault
counts.

* `Declarations` — the declarations and the index of their simple names;
* `build` — the table of declarations;
* `readRoot` — a type that is read once the table is finished.
-/

namespace Exemplar

/-- Where a written type stands. -/
inductive TypePlace where
  | root
  | supertype (className : String)
  | field (className fieldName : String)
deriving DecidableEq

/-- The wording of a place. -/
def TypePlace.message : TypePlace → String
  | root => "root type"
  | supertype className => "supertype of " ++ className
  | field className fieldName => "field " ++ className ++ "." ++ fieldName

/-- Why declarations do not make a class table, or a text does not make a type. -/
inductive BuildError where
  | invalidClassName (name : String)
  | duplicateClass (name : String)
  | typeSyntax (text : String) (place : TypePlace) (fault : TypeFault)
  | compoundInitializer (className fieldName : String)
deriving DecidableEq

namespace ClassTable

/-- Reads a written type and gives its names a meaning. -/
def readType (known : NameLookup) (scope : List String) (place : TypePlace) (text : String) :
    Except BuildError Ty :=
  match TypeTerm.parse text with
  | .ok term => .ok (term.resolve known scope)
  | .error fault => .error (.typeSyntax text place fault)

/-- Checks that names are qualified and different from each other and from those seen before. -/
def checkNames : List String → List String → Except BuildError Unit
  | _, [] => .ok ()
  | seen, name :: rest =>
    if ¬ isQualifiedName name then .error (.invalidClassName name)
    else if name ∈ seen then .error (.duplicateClass name)
    else checkNames (name :: seen) rest

/-- Checks that an initializer is a scalar. -/
def checkInitializer (className : String) (field : FieldDecl) : Except BuildError Unit :=
  match field.initializer with
  | some (.array _) | some (.object _) => .error (.compoundInitializer className field.name)
  | _ => .ok ()

/-- Understands the declaration of a field. -/
def readField (known : NameLookup) (scope : List String) (className : String)
    (field : FieldDecl) : Except BuildError (FieldInfo Ty) := do
  let type ← readType known scope (.field className field.name) field.type
  checkInitializer className field
  return {
    name := field.name
    type := type
    initializer := field.initializer
    annotations := field.annotations
    isStatic := field.isStatic }

/-- The type parameters of the class of a name. -/
def parametersOf (decls : List ClassDecl) (name : String) : List String :=
  ((decls.find? (·.name = name)).map (·.typeParameters)).getD []

/-- The type parameters in scope in a class: its own, then those of the classes around it. -/
def scopeOf (decls : List ClassDecl) (decl : ClassDecl) : List String :=
  decl.typeParameters ++
    (enclosingNames (decls.map (·.name)) decl.name).flatMap (parametersOf decls)

/-- The declarations that a table is made of, with an index of their simple names. -/
structure Declarations where
  all : List ClassDecl
  simpleNames : SimpleNames

/-- Declarations, with the index filled. -/
def Declarations.of (decls : List ClassDecl) : Declarations :=
  ⟨decls, .ofNames (decls.map (·.name))⟩

@[simp]
theorem Declarations.all_of (decls : List ClassDecl) : (Declarations.of decls).all = decls := rfl

/-- Class names are looked up among the declarations. -/
def Declarations.lookup (declared : Declarations) : NameLookup where
  isDeclared name := declared.all.any (·.name = name)
  bySimpleName? := declared.simpleNames.unique?

/-- Understands the declaration of a class. -/
def readClass (declared : Declarations) (decl : ClassDecl) : Except BuildError ClassInfo := do
  let scope := scopeOf declared.all decl
  let supertypes ← (decl.extended ++ decl.implemented).mapM
    (readType declared.lookup scope (.supertype decl.name))
  let fields ← decl.fields.mapM (readField declared.lookup scope decl.name)
  return {
    name := decl.name
    simpleName := simpleName decl.name
    kind := decl.kind
    typeParameters := decl.typeParameters
    supertypes := supertypes
    enumConstants := decl.enumConstants
    fields := fields
    enclosing := enclosingName? (declared.all.map (·.name)) decl.name }

/-- The table of a list of declarations. -/
def build (decls : List ClassDecl) : Except BuildError ClassTable := do
  checkNames [] (decls.map (·.name))
  let classes ← decls.mapM (readClass (.of decls))
  return ⟨classes⟩

/-- The table of documents, with the built-in classes before them. -/
def ofDocuments (documents : List Document) : Except BuildError ClassTable :=
  build (preludeClasses ++ documents.flatMap (·.classes))

/-- Class names are looked up among the classes of a table. -/
def lookup (table : ClassTable) : NameLookup := .ofNames table.names

/-- Reads a root type; no type parameter is in scope. -/
def readRoot (table : ClassTable) (text : String) : Except BuildError Ty :=
  readType table.lookup [] .root text

end ClassTable

end Exemplar
