import Exemplar.Text.Hidden

/-!
# Exemplar.Text.Quoted

A text in double quotes, as error messages and listings show it.  The quote and the backslash
stand behind a backslash; NUL, tab, line feed and carriage return have letters; every other
character that is not shown is spelled by its code point, `\u{200b}`.
-/

namespace Exemplar

/-- What stands for a character inside a quoted text. -/
def quotedChar (c : Char) : List Char :=
  match c with
  | '\x00' => ['\\', '0']
  | '\t' => ['\\', 't']
  | '\n' => ['\\', 'n']
  | '\r' => ['\\', 'r']
  | '"' => ['\\', '"']
  | '\\' => ['\\', '\\']
  | c =>
    if isHidden c then
      '\\' :: 'u' :: Char.ofNat 0x7B :: Nat.toDigits 16 c.toNat ++ [Char.ofNat 0x7D]
    else [c]

/-- A text in double quotes. -/
def quoted (s : String) : String :=
  String.ofList ('"' :: s.toList.flatMap quotedChar ++ ['"'])

end Exemplar
