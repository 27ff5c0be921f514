import RedundantAudio.Decimal.Binary

/-!
# Reading Decimal Numbers

A decimal number is an optional sign, digits with an optional point, and an
optional exponent; or one of the names for infinity and for what is not a
number, in any case. There is a digit on at least one side of the point and
at least one digit in an exponent, and nothing else: no blanks and no
separators.

The number is rounded once, from the exact decimal to the format asked for.
An exponent far outside every format is settled without computing the power
of ten that it names.

## Main definitions

* `Literal`: A decimal number as written.
* `Literal.ofText`: Reads one.
* `Literal.bits`: The bit pattern nearest to one.
* `readDouble`, `readSingle`: The floating-point number nearest to a text.
-/

namespace RedundantAudio

namespace Decimal

/-- A decimal number as written. -/
inductive Literal
  | nan
  | infinite
  | finite (coefficient : Nat) (exponent : Int)
  deriving DecidableEq, Repr

/-- The number that digits stand for. -/
def digitsValue (digits : List Char) : Nat :=
  digits.foldl (fun n c => 10 * n + (c.toNat - 48)) 0

/-- Takes the sign off a text. -/
def splitSign : List Char → Bool × List Char
  | '+' :: rest => (false, rest)
  | '-' :: rest => (true, rest)
  | rest => (false, rest)

/-- Reads the exponent at the end of a number. There may be none. -/
def readExponent : List Char → Option Int
  | [] => some 0
  | mark :: rest =>
    let (negative, digits) := splitSign rest
    if (mark = 'e' || mark = 'E') && !digits.isEmpty && digits.all Char.isDigit then
      some (if negative then -(digitsValue digits : Int) else digitsValue digits)
    else none

/-- Reads a number without its sign. -/
def Literal.ofText (text : List Char) : Option Literal :=
  match (String.ofList text).toLower with
  | "nan" => some .nan
  | "inf" | "infinity" => some .infinite
  | _ =>
    let whole := text.takeWhile Char.isDigit
    let rest := text.dropWhile Char.isDigit
    let places := match rest with
      | '.' :: rest => rest.takeWhile Char.isDigit
      | _ => []
    let rest := match rest with
      | '.' :: rest => rest.dropWhile Char.isDigit
      | _ => rest
    if whole.isEmpty && places.isEmpty then none
    else
      (readExponent rest).map fun exponent =>
        .finite (digitsValue (whole ++ places)) (exponent - places.length)

/-- The bit pattern nearest to a number. Beyond ten to the plus or minus
    thousandth, counting from the first digit, every format has only infinity
    or zero to offer. -/
def Literal.bits (f : Format) (negative : Bool) : Literal → Nat
  | .nan => f.special false (pow2 (f.fractionBits - 1))
  | .infinite => f.special negative 0
  | .finite coefficient exponent =>
    let magnitude := exponent + (Nat.toDigits 10 coefficient).length
    if coefficient = 0 || magnitude < -1000 then f.nearest negative 0 1
    else if 1000 < magnitude then f.special negative 0
    else
      f.nearest negative (coefficient * pow10 exponent.toNat) (pow10 (-exponent).toNat)

/-- The bit pattern nearest to the number that a text stands for. -/
def readBits (f : Format) (text : String) : Option Nat :=
  let (negative, rest) := splitSign text.toList
  (Literal.ofText rest).map (·.bits f negative)

/-- The double nearest to the number that a text stands for. -/
def readDouble (text : String) : Option Float :=
  (readBits binary64 text).map fun bits => Float.ofBits (.ofNat bits)

/-- The single nearest to the number that a text stands for. -/
def readSingle (text : String) : Option Float32 :=
  (readBits binary32 text).map fun bits => Float32.ofBits (.ofNat bits)

end Decimal

end RedundantAudio
