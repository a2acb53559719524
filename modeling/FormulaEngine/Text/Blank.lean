/-!
# Blank characters

The characters that count as blank around a piece of text are those with the
Unicode property `White_Space`.  Configuration texts, kind names and texts that
are converted to a number or a truth value are trimmed of them at both ends.
-/

namespace FormulaEngine

namespace Text

/-- Test whether a character has the Unicode property `White_Space`. -/
def isBlank (character : Char) : Bool :=
  let code := character.toNat
  (0x9 ≤ code && code ≤ 0xd) || code == 0x20 || code == 0x85 ||
    code == 0xa0 || code == 0x1680 || (0x2000 ≤ code && code ≤ 0x200a) ||
    code == 0x2028 || code == 0x2029 || code == 0x202f || code == 0x205f ||
    code == 0x3000

/-- Erase the blank characters at both ends of a list of characters. -/
def trimChars (characters : List Char) : List Char :=
  ((characters.dropWhile isBlank).reverse.dropWhile isBlank).reverse

/-- Erase the blank characters at both ends of a text. -/
def trim (text : String) : String :=
  String.ofList (trimChars text.toList)

/-- A text without blank characters is left as it is. -/
theorem trimChars_eq_self {characters : List Char}
    (noBlank : ∀ character ∈ characters, isBlank character = false) :
    trimChars characters = characters := by
  have dropNone : ∀ {remaining : List Char},
      (∀ character ∈ remaining, isBlank character = false) →
        remaining.dropWhile isBlank = remaining := by
    intro remaining noBlank
    cases remaining with
    | nil => rfl
    | cons first rest => simp [noBlank first (by simp)]
  unfold trimChars
  rw [dropNone noBlank,
    dropNone (fun character member =>
      noBlank character (List.mem_reverse.mp member)),
    List.reverse_reverse]

end Text

end FormulaEngine
