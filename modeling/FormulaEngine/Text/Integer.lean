/-!
# Written integers

Integers are written in decimal digits with an optional sign in front.  The
plain form admits nothing else; the grouped form also admits underscores
anywhere but before the first digit.  Writing produces the plain form, with a
sign only for negative values, so both readers read back what is written.
-/

namespace FormulaEngine

namespace Text

/-- Write an integer in decimal digits, with `-` in front when it is negative. -/
def writeInt (value : Int) : String :=
  if value < 0 then "-" ++ value.natAbs.repr else value.natAbs.repr

/-- Split an optional sign off; the first part tells whether it was `-`. -/
def splitSign : List Char → Bool × List Char
  | '-' :: rest => (true, rest)
  | '+' :: rest => (false, rest)
  | characters => (false, characters)

/-- Put a sign on a magnitude. -/
def withSign (negative : Bool) (magnitude : Nat) : Int :=
  if negative then -(magnitude : Int) else magnitude

/-- Read a nonempty list of decimal digits. -/
def readDigits? (characters : List Char) : Option Nat :=
  if characters ≠ [] ∧ characters.all Char.isDigit = true then
    some (Nat.ofDigitChars 10 characters 0)
  else none

def readInt? (characters : List Char) : Option Int :=
  let (negative, digits) := splitSign characters
  (readDigits? digits).map (withSign negative)

/-- Read a plain integer that has no minus sign. -/
def readUnsigned? (characters : List Char) : Option Nat :=
  match characters with
  | '+' :: rest => readDigits? rest
  | _ => readDigits? characters

/-- Read an integer whose digits may be grouped by underscores. -/
def readGroupedInt? (characters : List Char) : Option Int :=
  let (negative, digits) := splitSign characters
  if digits.head? = some '_' then none
  else (readDigits? (digits.filter (· ≠ '_'))).map (withSign negative)

/-- Narrow an integer to 64 bits when it lies in their range. -/
def narrowInt? (value : Int) : Option Int64 :=
  if Int64.minValue.toInt ≤ value ∧ value ≤ Int64.maxValue.toInt then
    some (Int64.ofInt value)
  else none

theorem readDigits?_toDigits (value : Nat) :
    readDigits? (Nat.toDigits 10 value) = some value := by
  have allDigits : (Nat.toDigits 10 value).all Char.isDigit = true :=
    List.all_eq_true.mpr fun _ member =>
      Nat.isDigit_of_mem_toDigits (by omega) (by omega) member
  simp [readDigits?, allDigits, Nat.toDigits_ne_nil, Nat.ofDigitChars_ten_toDigits]

theorem splitSign_toDigits (value : Nat) :
    splitSign (Nat.toDigits 10 value) = (false, Nat.toDigits 10 value) := by
  have digits : ∀ character ∈ Nat.toDigits 10 value, character.isDigit = true :=
    fun _ member => Nat.isDigit_of_mem_toDigits (by omega) (by omega) member
  unfold splitSign
  split
  · rename_i rest equation
    have := digits '-' (by simp [equation])
    simp [Char.isDigit] at this
  · rename_i rest equation
    have := digits '+' (by simp [equation])
    simp [Char.isDigit] at this
  · rfl

theorem toList_writeInt (value : Int) :
    (writeInt value).toList =
      if value < 0 then '-' :: Nat.toDigits 10 value.natAbs
      else Nat.toDigits 10 value.natAbs := by
  unfold writeInt
  split <;> simp [Nat.repr_eq_ofList_toDigits]

theorem withSign_natAbs (value : Int) :
    withSign (decide (value < 0)) value.natAbs = value := by
  by_cases negative : value < 0
  · rw [decide_eq_true negative, withSign, if_pos rfl]
    omega
  · rw [decide_eq_false negative, withSign, if_neg Bool.false_ne_true]
    omega

/-- Reading what was written gives the integer back. -/
theorem readInt?_writeInt (value : Int) :
    readInt? (writeInt value).toList = some value := by
  have split : splitSign (writeInt value).toList =
      (decide (value < 0), Nat.toDigits 10 value.natAbs) := by
    rw [toList_writeInt]
    by_cases negative : value < 0
    · rw [if_pos negative, decide_eq_true negative]
      rfl
    · rw [if_neg negative, decide_eq_false negative, splitSign_toDigits]
  rw [readInt?, split]
  show (readDigits? _).map _ = _
  rw [readDigits?_toDigits, Option.map_some, withSign_natAbs]

end Text

end FormulaEngine
