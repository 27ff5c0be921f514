import RedundantAudio.Decimal.Reader
import RedundantAudio.Decimal.Text

/-!
# Values on a Command Line

How the text of an option becomes a number. Whole numbers are read digit by
digit, and the first digit that is none or that leads out of range settles
what is wrong. A range may be narrower than what is read, and then a number
outside it is refused by name.

## Main definitions

* `NumberFault`: Why a text is no number.
* `readSigned`, `readUnsigned`: Read whole numbers.
* `ValueFault`: Why a value is refused.
* `bounded`, `unbounded`, `single`, `percentage`: Readers of options.
-/

namespace RedundantAudio

namespace Cli

/-- Why a text is no number. -/
inductive NumberFault
  | empty
  | invalidDigit
  | tooLarge
  | tooSmall
  deriving DecidableEq, Repr

/-- The wording of each fault. -/
def NumberFault.message : NumberFault → String
  | empty => "cannot parse integer from empty string"
  | invalidDigit => "invalid digit found in string"
  | tooLarge => "number too large to fit in target type"
  | tooSmall => "number too small to fit in target type"

/-- Reads digits behind a number read so far, which stays between two
    bounds. -/
def readDigits (low high : Int) (negative : Bool) (soFar : Int) :
    List Char → Except NumberFault Int
  | [] => .ok soFar
  | c :: rest =>
    if !c.isDigit then .error .invalidDigit
    else
      let digit : Int := c.toNat - 48
      let next := 10 * soFar + (if negative then -digit else digit)
      if next > high then .error .tooLarge
      else if next < low then .error .tooSmall
      else readDigits low high negative next rest

/-- Reads a whole number of 64 bits with an optional sign. -/
def readSigned (text : String) : Except NumberFault Int :=
  let low := Int64.minValue.toInt
  let high := Int64.maxValue.toInt
  match text.toList with
  | [] => .error .empty
  | ['+'] | ['-'] => .error .invalidDigit
  | '+' :: digits => readDigits low high false 0 digits
  | '-' :: digits => readDigits low high true 0 digits
  | digits => readDigits low high false 0 digits

/-- Reads a natural number of 64 bits. It may have a plus sign. -/
def readUnsigned (text : String) : Except NumberFault Nat :=
  let high : Int := UInt64.size - 1
  let number : Except NumberFault Int := match text.toList with
    | [] => .error .empty
    | ['+'] => .error .invalidDigit
    | '+' :: digits => readDigits 0 high false 0 digits
    | digits => readDigits 0 high false 0 digits
  number.map Int.toNat

/-- Why a value is refused. -/
inductive ValueFault
  /-- For a reason. -/
  | because (reason : String)
  /-- It is none of some names. -/
  | noneOf (names : List String)
  deriving DecidableEq, Repr

/-- Reads a natural number up to a bound. -/
def bounded (most : Nat) (text : String) : Except ValueFault Nat :=
  match readSigned text with
  | .error fault => .error (.because fault.message)
  | .ok n =>
    if n < 0 ∨ n > most then .error (.because s!"{n} is not in 0..={most}")
    else .ok n.toNat

/-- Reads a natural number of 64 bits. -/
def unbounded (text : String) : Except ValueFault Nat :=
  match readUnsigned text with
  | .error fault => .error (.because fault.message)
  | .ok n => .ok n

/-- What is wrong with a text that is no floating-point number. -/
def floatFault (text : String) : ValueFault :=
  .because <|
    if text.isEmpty then "cannot parse float from empty string" else "invalid float literal"

/-- Reads a number in single precision. -/
def single (text : String) : Except ValueFault Float32 :=
  match Decimal.readSingle text with
  | some x => .ok x
  | none => .error (floatFault text)

/-- Reads a percentage. -/
def percentage (text : String) : Except ValueFault Float :=
  match Decimal.readDouble text with
  | none => .error (floatFault text)
  | some x =>
    if 0 ≤ x && x ≤ 100 then .ok x
    else
      let shown := Decimal.plain x
      .error (.because s!"{shown} is not a percentage between 0 and 100")

end Cli

end RedundantAudio
