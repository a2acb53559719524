import FormulaEngine.Text.Blank
import FormulaEngine.Value.Basic

/-!
# Conversion of values

A converter turns values into values of declared types, or refuses.  The basic
one keeps values that already are of the type, writes and reads texts, narrows
numbers only where nothing is lost, and takes truth values as one and zero.
-/

namespace FormulaEngine

variable {Label : Type}

namespace Value

/-- The truth value that a value converts to. -/
def convertToBool? : Value Label → Option Bool
  | bool value => some value
  | number value => some (!value.isZero)
  | integer value => some (value != 0)
  | bigInteger value => some (value != 0)
  | text value =>
      let word := (Text.trim value).map Char.toLower
      if word = "true" then some true
      else if word = "false" then some false
      else none
  | _ => none

/-- The text that a value converts to. -/
def convertToText? (forest : Forest) : Value Label → Option String
  | expression _ | function _ _ => none
  | value => some (value.write forest)

/-- Wrap an operand in a kind of numbers, if it has a counterpart there. -/
def numeralOf? (kind : NumberKind) (operand : Operand) : Option Numeral :=
  (kind.create operand).toOption

/-- Read a number of a kind. -/
def readNumeral? (kind : NumberKind) (value : String) : Option Numeral :=
  let characters := Text.trimChars value.toList
  match kind with
  | .floating => (Binary64.read? characters).map .floating
  | .arbitraryPrecision => (Decimal.read? characters).map .decimal

/-- The number of a kind that a value converts to. -/
def convertToNumber? (kind : NumberKind) : Value Label → Option Numeral
  | number value => (value.setKind kind).toOption
  | integer value => numeralOf? kind (.integer value)
  | bigInteger value => numeralOf? kind (.bigInteger value)
  | bool value => numeralOf? kind (.integer (if value then 1 else 0))
  | text value => readNumeral? kind value
  | _ => none

/-- The integer that a number without fractional part stands for. -/
def integerOfNumeral? (value : Numeral) : Option Int :=
  if value.isIntegral then value.toOperand.toBigInteger.toOption else none

/-- Read an integer, either in digits alone or as a decimal without fractional
part. -/
def readInteger? (value : String) : Option Int :=
  let characters := Text.trimChars value.toList
  match Text.readGroupedInt? characters with
  | some whole => some whole
  | none =>
      (Decimal.read? characters).bind fun decimal =>
        integerOfNumeral? (.decimal decimal)

/-- The integer that a value converts to; nothing is rounded. -/
def convertToInteger? : Value Label → Option Int
  | integer value => some value.toInt
  | bigInteger value => some value
  | bool value => some (if value then 1 else 0)
  | number value => integerOfNumeral? value
  | text value => readInteger? value
  | _ => none

/-- The reference that a value converts to. -/
def convertToReference? : Value Label → Option Reference
  | reference name => some name
  | text value => some ⟨value⟩
  | _ => none

/-- Keep a value that is of a type. -/
def keep? (value : Value Label) (target : ValueType) : Option (Value Label) :=
  if value.type = target then some value else none

/-- Convert a value to a declared type by the basic rules. -/
def convert? (forest : Forest) (value : Value Label) (target : ValueType)
    (kind : NumberKind) : Option (Value Label) :=
  match target with
  | .any => some value
  | .bool => value.convertToBool?.map bool
  | .text => (value.convertToText? forest).map text
  | .number => (value.convertToNumber? kind).map number
  | .integer =>
      (value.convertToInteger?.bind Text.narrowInt?).map integer
  | .bigInteger => value.convertToInteger?.map bigInteger
  | .reference => value.convertToReference?.map reference
  | .expression => value.keep? .expression
  | .function => value.keep? .function

end Value

/-- A converter: its name for inspection, and what a value becomes for a type and
a kind of numbers, if anything. -/
structure Converter (Label : Type) where
  name : String
  convert? :
    Forest → Value Label → ValueType → NumberKind → Option (Value Label)

/-- The converter of the basic rules. -/
def Converter.basic : Converter Label where
  name := "BasicConverter"
  convert? := Value.convert?

instance : Inhabited (Converter Label) :=
  ⟨.basic⟩

/-- Report a refused conversion in full. -/
def conversionReport (forest : Forest) (value : Value Label)
    (target : ValueType) : String :=
  "cannot convert " ++ value.type.name ++ " `" ++ value.write forest ++
    "` to " ++ target.name

end FormulaEngine
