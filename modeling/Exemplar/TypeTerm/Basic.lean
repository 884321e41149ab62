/-!
# Exemplar.TypeTerm.Basic

A type as it is written: names with their arguments, array suffixes and wildcards.  The names
have no meaning yet; a class table gives them one (`TypeTerm.resolve`).
-/

namespace Exemplar

/-- A written type.  `? extends X` and `? super X` are both `bounded X`. -/
inductive TypeTerm where
  | named (name : String) (args : List TypeTerm)
  | array (item : TypeTerm)
  | wildcard
  | bounded (bound : TypeTerm)

namespace TypeTerm

mutual

/-- Decides equality of written types. -/
def decEq : (a b : TypeTerm) → Decidable (a = b)
  | named m as, named n bs =>
    if h : m = n then
      match decEqList as bs with
      | isTrue h' => isTrue (by rw [h, h'])
      | isFalse h' => isFalse (by simp [h'])
    else isFalse (by simp [h])
  | array a, array b =>
    match decEq a b with
    | isTrue h => isTrue (by rw [h])
    | isFalse h => isFalse (by simpa using h)
  | wildcard, wildcard => isTrue rfl
  | bounded a, bounded b =>
    match decEq a b with
    | isTrue h => isTrue (by rw [h])
    | isFalse h => isFalse (by simpa using h)
  | named _ _, array _ | named _ _, wildcard | named _ _, bounded _ | array _, named _ _
  | array _, wildcard | array _, bounded _ | wildcard, named _ _ | wildcard, array _
  | wildcard, bounded _ | bounded _, named _ _ | bounded _, array _ | bounded _, wildcard =>
    isFalse (by simp)

/-- Decides equality of lists of written types. -/
def decEqList : (as bs : List TypeTerm) → Decidable (as = bs)
  | [], [] => isTrue rfl
  | a :: as, b :: bs =>
    match decEq a b, decEqList as bs with
    | isTrue h, isTrue h' => isTrue (by rw [h, h'])
    | isFalse h, _ => isFalse (by simp [h])
    | _, isFalse h' => isFalse (by simp [h'])
  | [], _ :: _ | _ :: _, [] => isFalse (by simp)

end

instance : DecidableEq TypeTerm := decEq

end TypeTerm

/-- Why a text is not a written type.  Offsets count UTF-8 bytes. -/
inductive TypeFault where
  | nameExpected (offset : Nat)
  | invalidName (name : String)
  | bracketExpected
  | separatorExpected
  | unexpected (found : Char) (offset : Nat)
deriving DecidableEq

namespace TypeFault

/-- The wording of a fault. -/
def message : TypeFault → String
  | nameExpected offset => s!"expected a type name at offset {offset}"
  | invalidName name => "`" ++ name ++ "` is not a valid type name"
  | bracketExpected => "expected `]`"
  | separatorExpected => "expected `,` or `>` in type arguments"
  | unexpected found offset => "unexpected `" ++ found.toString ++ s!"` at offset {offset}"

end TypeFault

end Exemplar
