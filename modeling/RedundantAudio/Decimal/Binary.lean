/-!
# Binary Floating-Point Numbers as Fractions

The texts that this library writes for floating-point numbers are exact
statements about them, so they are computed on the value itself and never
through arithmetic that rounds. A bit pattern is split into sign, mantissa
and exponent, and the magnitude it stands for is a fraction of natural
numbers. Going back, a fraction is rounded to the nearest number that a
format can hold, a tie going to the even neighbour.

## Main definitions

* `roundDiv`: A quotient, rounded to the nearest natural number.
* `Format`: A binary interchange format.
* `Magnitude`: A mantissa and a power of two.
* `Value`: What a bit pattern stands for.
* `Format.read`: The value of a bit pattern.
* `Format.nearest`: The bit pattern nearest to a fraction.
* `ofNat`: The double nearest to a natural number.
-/

namespace RedundantAudio

namespace Decimal

/-- A quotient rounded to the nearest natural number, a tie to the even
    one. -/
def roundDiv (num den : Nat) : Nat :=
  let below := num / den
  let rest := 2 * (num % den)
  if rest < den then below
  else if den < rest then below + 1
  else if below % 2 = 0 then below
  else below + 1

/-- A binary interchange format: so many bits of exponent and so many of
    stored mantissa, below one sign bit. -/
structure Format where
  /-- Bits of the exponent field. -/
  exponentBits : Nat
  /-- Bits of the mantissa field; the leading one is not stored. -/
  fractionBits : Nat
  deriving DecidableEq, Repr

/-- Double precision. -/
def binary64 : Format := ⟨11, 52⟩

/-- Single precision. -/
def binary32 : Format := ⟨8, 23⟩

/-- A power of two. -/
def pow2 (n : Nat) : Nat := Nat.pow 2 n

/-- A power of ten. -/
def pow10 (n : Nat) : Nat := Nat.pow 10 n

/-- A mantissa times a power of two. -/
structure Magnitude where
  /-- The mantissa. -/
  mantissa : Nat
  /-- The power of two. -/
  exponent : Int
  deriving DecidableEq, Repr

/-- A magnitude as a fraction. -/
def Magnitude.fraction (m : Magnitude) : Nat × Nat :=
  (m.mantissa * pow2 m.exponent.toNat, pow2 (-m.exponent).toNat)

/-- What a bit pattern stands for. -/
inductive Value
  | nan
  | infinite (negative : Bool)
  | finite (negative : Bool) (magnitude : Magnitude)
  deriving DecidableEq, Repr

namespace Format

/-- The exponent field of infinities and of what is not a number. -/
def topExponent (f : Format) : Nat :=
  pow2 f.exponentBits - 1

/-- The power of two of the smallest numbers. -/
def minExponent (f : Format) : Int :=
  2 - pow2 (f.exponentBits - 1) - f.fractionBits

/-- The value of a bit pattern. -/
def read (f : Format) (bits : Nat) : Value :=
  let fraction := bits % pow2 f.fractionBits
  let exponent := bits / pow2 f.fractionBits % pow2 f.exponentBits
  let negative := bits / pow2 (f.fractionBits + f.exponentBits) % 2 = 1
  if exponent = f.topExponent then
    if fraction = 0 then .infinite negative else .nan
  else if exponent = 0 then
    .finite negative ⟨fraction, f.minExponent⟩
  else
    .finite negative ⟨pow2 f.fractionBits + fraction, f.minExponent + (exponent - 1 : Nat)⟩

/-- The bit pattern of an infinity or, with a nonzero fraction, of what is not
    a number. -/
def special (f : Format) (negative : Bool) (fraction : Nat) : Nat :=
  (if negative then pow2 (f.fractionBits + f.exponentBits) else 0)
    + f.topExponent * pow2 f.fractionBits + fraction

/-- The power of two of the last mantissa bit of the numbers near a fraction:
    one that leaves a mantissa of full length, unless the format ends
    first. -/
def unitExponent (f : Format) (num den : Nat) : Int :=
  let guess : Int := (num.log2 : Int) - den.log2 - f.fractionBits
  let scaled (e : Int) : Nat := num * pow2 (-e).toNat / (den * pow2 e.toNat)
  let e := if scaled guess < pow2 f.fractionBits then guess - 1 else guess
  max e f.minExponent

/-- The bit pattern nearest to a fraction. What is too large for the format is
    infinite. A mantissa that rounding lengthens by a bit carries into the
    exponent field, which is what the encoding asks for. -/
def nearest (f : Format) (negative : Bool) (num den : Nat) : Nat :=
  let sign := if negative then pow2 (f.fractionBits + f.exponentBits) else 0
  if num = 0 then sign
  else
    let e := f.unitExponent num den
    let mantissa := roundDiv (num * pow2 (-e).toNat) (den * pow2 e.toNat)
    let field := (e - f.minExponent).toNat
    let bits :=
      if mantissa < pow2 f.fractionBits then mantissa
      else field * pow2 f.fractionBits + mantissa
    if bits < f.topExponent * pow2 f.fractionBits then sign + bits
    else f.special negative 0

end Format

/-- The double nearest to a natural number. -/
def ofNat (n : Nat) : Float :=
  .ofBits (.ofNat (binary64.nearest false n 1))

end Decimal

end RedundantAudio
