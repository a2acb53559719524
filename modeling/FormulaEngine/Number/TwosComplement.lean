/-!
# Bit operations on integers

An integer is read as an infinite sequence of bits in two's complement: the bits
of a nonnegative integer end in zeros, and a negative integer has the opposite
bits of the nonnegative integer `-value - 1`.
-/

namespace FormulaEngine

namespace TwosComplement

/-- The bit of an integer at a position. -/
def testBit : Int → Nat → Bool
  | .ofNat value, position => value.testBit position
  | .negSucc value, position => !value.testBit position

/-- The bits of `left` that `right` does not have. -/
def difference (left right : Nat) : Nat :=
  left ^^^ (left &&& right)

/-- The bits that both integers have. -/
def and : Int → Int → Int
  | .ofNat left, .ofNat right => .ofNat (left &&& right)
  | .ofNat left, .negSucc right => .ofNat (difference left right)
  | .negSucc left, .ofNat right => .ofNat (difference right left)
  | .negSucc left, .negSucc right => .negSucc (left ||| right)

/-- The bits that one of the integers has. -/
def or : Int → Int → Int
  | .ofNat left, .ofNat right => .ofNat (left ||| right)
  | .ofNat left, .negSucc right => .negSucc (difference right left)
  | .negSucc left, .ofNat right => .negSucc (difference left right)
  | .negSucc left, .negSucc right => .negSucc (left &&& right)

/-- The bits that exactly one of the integers has. -/
def xor : Int → Int → Int
  | .ofNat left, .ofNat right => .ofNat (left ^^^ right)
  | .ofNat left, .negSucc right => .negSucc (left ^^^ right)
  | .negSucc left, .ofNat right => .negSucc (left ^^^ right)
  | .negSucc left, .negSucc right => .ofNat (left ^^^ right)

theorem testBit_difference (left right position : Nat) :
    (difference left right).testBit position =
      (left.testBit position && !right.testBit position) := by
  cases leftBit : left.testBit position <;>
    cases rightBit : right.testBit position <;>
      simp [difference, leftBit, rightBit]

@[simp]
theorem testBit_and (left right : Int) (position : Nat) :
    testBit (and left right) position =
      (testBit left position && testBit right position) := by
  cases left <;> cases right <;>
    simp [and, testBit, testBit_difference, Bool.and_comm]

@[simp]
theorem testBit_or (left right : Int) (position : Nat) :
    testBit (or left right) position =
      (testBit left position || testBit right position) := by
  cases left <;> cases right <;>
    simp [or, testBit, testBit_difference, Bool.or_comm]

@[simp]
theorem testBit_xor (left right : Int) (position : Nat) :
    testBit (xor left right) position =
      (testBit left position ^^ testBit right position) := by
  cases left <;> cases right <;> simp [xor, testBit]

end TwosComplement

end FormulaEngine
