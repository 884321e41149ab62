/-!
# Exemplar.Ty.Basic

Types whose names have a meaning: primitive types, declared or unknown classes with arguments,
type parameters, arrays and wildcards.  A type has a canonical text, and type parameters can be
replaced by types.

* `Ty.text` — `java.util.Map<K,java.lang.String[]>`, no blanks but in `? extends`;
* `Ty.subst` — all parameters at once.
-/

namespace Exemplar

/-- A type as the class table understands it. -/
inductive Ty where
  | primitive (name : String)
  | array (item : Ty)
  | named (name : String) (args : List Ty)
  | param (name : String)
  | wildcard
  | bounded (bound : Ty)

/-- What type parameters stand for, the last pair of a name counting. -/
abbrev Substitution := List (String × Ty)

/-- The type that a substitution gives for a parameter. -/
def Substitution.find? (σ : Substitution) (name : String) : Option Ty :=
  (σ.reverse.find? (·.1 = name)).map (·.2)

namespace Ty

/-! ## equality -/

mutual

/-- Decides equality of types. -/
def decEq : (a b : Ty) → Decidable (a = b)
  | primitive m, primitive n =>
    if h : m = n then isTrue (by rw [h]) else isFalse (by simpa using h)
  | array a, array b =>
    match decEq a b with
    | isTrue h => isTrue (by rw [h])
    | isFalse h => isFalse (by simpa using h)
  | named m as, named n bs =>
    if h : m = n then
      match decEqList as bs with
      | isTrue h' => isTrue (by rw [h, h'])
      | isFalse h' => isFalse (by simp [h'])
    else isFalse (by simp [h])
  | param m, param n =>
    if h : m = n then isTrue (by rw [h]) else isFalse (by simpa using h)
  | wildcard, wildcard => isTrue rfl
  | bounded a, bounded b =>
    match decEq a b with
    | isTrue h => isTrue (by rw [h])
    | isFalse h => isFalse (by simpa using h)
  | primitive _, array _ | primitive _, named _ _ | primitive _, param _ | primitive _, wildcard
  | primitive _, bounded _ | array _, primitive _ | array _, named _ _ | array _, param _
  | array _, wildcard | array _, bounded _ | named _ _, primitive _ | named _ _, array _
  | named _ _, param _ | named _ _, wildcard | named _ _, bounded _ | param _, primitive _
  | param _, array _ | param _, named _ _ | param _, wildcard | param _, bounded _
  | wildcard, primitive _ | wildcard, array _ | wildcard, named _ _ | wildcard, param _
  | wildcard, bounded _ | bounded _, primitive _ | bounded _, array _ | bounded _, named _ _
  | bounded _, param _ | bounded _, wildcard => isFalse (by simp)

/-- Decides equality of lists of types. -/
def decEqList : (as bs : List Ty) → Decidable (as = bs)
  | [], [] => isTrue rfl
  | a :: as, b :: bs =>
    match decEq a b, decEqList as bs with
    | isTrue h, isTrue h' => isTrue (by rw [h, h'])
    | isFalse h, _ => isFalse (by simp [h])
    | _, isFalse h' => isFalse (by simp [h'])
  | [], _ :: _ | _ :: _, [] => isFalse (by simp)

end

instance : DecidableEq Ty := decEq

/-! ## canonical text -/

mutual

/-- The characters of the canonical text. -/
def chars : Ty → List Char
  | primitive name | param name => name.toList
  | array item => item.chars ++ ['[', ']']
  | named name [] => name.toList
  | named name (arg :: args) => name.toList ++ '<' :: arg.chars ++ moreChars args ++ ['>']
  | wildcard => ['?']
  | bounded bound => "? extends ".toList ++ bound.chars

/-- The characters of the arguments after the first, each behind a comma. -/
def moreChars : List Ty → List Char
  | [] => []
  | arg :: args => ',' :: arg.chars ++ moreChars args

end

/-- The canonical text of a type. -/
def text (ty : Ty) : String := String.ofList ty.chars

theorem text_named_nil (name : String) : (named name []).text = name := String.ofList_toList

theorem chars_named_cons (name : String) (arg : Ty) (args : List Ty) :
    (named name (arg :: args)).chars =
      name.toList ++ '<' :: arg.chars ++ moreChars args ++ ['>'] := rfl

theorem chars_bounded (bound : Ty) :
    (bounded bound).chars = "? extends ".toList ++ bound.chars := rfl

/-! ## substitution -/

mutual

/-- Replaces every parameter for which the substitution has a type, all at once. -/
def subst (σ : Substitution) : Ty → Ty
  | primitive name => primitive name
  | array item => array (item.subst σ)
  | named name args => named name (substList σ args)
  | param name => (σ.find? name).getD (param name)
  | wildcard => wildcard
  | bounded bound => bounded (bound.subst σ)

/-- Replaces the parameters in each type of a list. -/
def substList (σ : Substitution) : List Ty → List Ty
  | [] => []
  | arg :: args => arg.subst σ :: substList σ args

end

theorem substList_eq_map (σ : Substitution) (args : List Ty) :
    substList σ args = args.map (subst σ) := by
  induction args with
  | nil => rfl
  | cons arg args ih => rw [substList, ih, List.map_cons]

/-! ## parts -/

/-- The type under all array suffixes. -/
def component : Ty → Ty
  | array item => item.component
  | ty => ty

/-- The arguments written on a class name. -/
def arguments : Ty → List Ty
  | named _ args => args
  | _ => []

end Ty

end Exemplar
