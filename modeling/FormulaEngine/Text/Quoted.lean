import FormulaEngine.Text.Printable

/-!
# Quoted text

A text literal is shown between double quotes.  The quote and the backslash
take a backslash, four controls have a letter, and any other character without
a visible form is shown by its code in lower-case hexadecimal digits.
-/

namespace FormulaEngine

namespace Text

/-- Spell one character of a quoted text. -/
def quotedChar (character : Char) : List Char :=
  match character with
  | '\x00' => ['\\', '0']
  | '\t' => ['\\', 't']
  | '\r' => ['\\', 'r']
  | '\n' => ['\\', 'n']
  | '"' => ['\\', '"']
  | '\\' => ['\\', '\\']
  | _ =>
      if 0x20 ≤ character.toNat && character.toNat < 0x7f then [character]
      else if isPrintable character then [character]
      else ['\\', 'u', '\x7b'] ++ Nat.toDigits 16 character.toNat ++ ['\x7d']

/-- Spell a text between double quotes. -/
def quoted (text : String) : String :=
  String.ofList ('"' :: text.toList.flatMap quotedChar ++ ['"'])

end Text

end FormulaEngine
