import RedundantAudio.Decimal.Binary

/-!
# Decimal Texts of Floating-Point Numbers

Two texts are needed. The *shortest* text has the fewest digits that still
read back as the same number, and among those the nearest to it, the one
farther from zero when two are equally near; it is always written out in full,
never with an exponent. The *fixed* text has a set
number of places, the exact value being rounded with ties to even.

For the shortest text the numbers that read back as the given one form an
interval around it, from the midpoint below to the midpoint above, ends
included when the mantissa is even. Grids of one, two, three and more digits
are tried in turn. If any point of a grid lies in the interval, so does one
of the two neighbours of the value on that grid, so testing those two is
enough.

## Main definitions

* `Digits`: A decimal number as digits and a power of ten.
* `shortestDigits`: The fewest digits that read back.
* `plain`: The shortest text of a double.
* `fixed`: The text of a double with a set number of places.
-/

namespace RedundantAudio

namespace Decimal

/-- The natural number `coefficient` times a power of ten. -/
structure Digits where
  /-- The digits as one number. -/
  coefficient : Nat
  /-- The power of ten. -/
  exponent : Int
  deriving DecidableEq, Repr

/-- The least number of steps, up to a limit, after which multiplying by ten
    reaches a bound. -/
def stepsToReach (bound : Nat) : Nat → Nat → Nat
  | _, 0 => 0
  | n, limit + 1 => if bound ≤ n then 0 else stepsToReach bound (10 * n) limit + 1

/-- The power of ten at or below a positive fraction. -/
def decimalExponent (num den : Nat) : Int :=
  if den ≤ num then (Nat.toDigits 10 (num / den)).length - 1
  else -(stepsToReach den num 400 : Int)

/-- Whether `coefficient · 10 ^ exponent` lies between two fractions over one
    denominator, ends included or not. -/
def Digits.within (d : Digits) (low high den : Nat) (closed : Bool) : Bool :=
  let scaled := d.coefficient * pow10 d.exponent.toNat * den
  let unit := pow10 (-d.exponent).toNat
  if closed then low * unit ≤ scaled && scaled ≤ high * unit
  else low * unit < scaled && scaled < high * unit

/-- The better of the two neighbours of a fraction on the grid of a power of
    ten, if either reads back. Of two equally near ones the larger is the
    better: `251215851624250.875` is written `251215851624250.88`. -/
def gridHit (num den low high : Nat) (closed : Bool) (exponent : Int) : Option Digits :=
  let top := num * pow10 (-exponent).toNat
  let unit := den * pow10 exponent.toNat
  let below : Digits := ⟨top / unit, exponent⟩
  let above : Digits := ⟨top / unit + 1, exponent⟩
  match below.within low high den closed, above.within low high den closed with
  | true, true => some (if 2 * (top % unit) < unit then below else above)
  | true, false => some below
  | false, true => some above
  | false, false => none

/-- The first hit on the grids from one exponent downwards. -/
def firstHit (num den low high : Nat) (closed : Bool) (exponent : Int) : Nat → Option Digits
  | 0 => none
  | fuel + 1 =>
    match gridHit num den low high closed exponent with
    | some hit => some hit
    | none => firstHit num den low high closed (exponent - 1) fuel

/-- The fewest digits that read back as a positive magnitude of a format, and
    of those the nearest, the larger of two. The interval below a power of two is half as wide
    as the one above, unless the power of two is the least of its kind. -/
def shortestDigits (f : Format) (m : Magnitude) : Digits :=
  let (num, den) := m.fraction
  -- Four times the value, so that the midpoints are whole numbers as well.
  let unit := pow2 m.exponent.toNat
  let narrow := m.mantissa = pow2 f.fractionBits ∧ f.minExponent < m.exponent
  let low := 4 * num - (if narrow then unit else 2 * unit)
  let high := 4 * num + 2 * unit
  let closed := m.mantissa % 2 = 0
  let top := decimalExponent num den + 1
  (firstHit (4 * num) (4 * den) low high closed top 800).getD ⟨num, 0⟩

/-- The digits of a natural number, filled with zeros on the left. -/
def padded (width n : Nat) : String :=
  let digits := Nat.toDigits 10 n
  String.ofList (List.replicate (width - digits.length) '0' ++ digits)

/-- A number with a decimal point a set number of places from the right, or
    without a point when there are no places. -/
def pointed (places n : Nat) : String :=
  if places = 0 then padded 1 n
  else padded 1 (n / pow10 places) ++ "." ++ padded places (n % pow10 places)

/-- A decimal number written out in full. -/
def Digits.render (d : Digits) : String :=
  pointed (-d.exponent).toNat (d.coefficient * pow10 d.exponent.toNat)

/-- The text of a value, given the text of its magnitude. Zero keeps its
    sign. -/
def Value.render (magnitude : Magnitude → String) : Value → String
  | .nan => "NaN"
  | .infinite negative => if negative then "-inf" else "inf"
  | .finite negative m => (if negative then "-" else "") ++ magnitude m

/-- The shortest text of a double, without an exponent. -/
def plain (x : Float) : String :=
  (binary64.read x.toBits.toNat).render fun m =>
    if m.mantissa = 0 then "0" else (shortestDigits binary64 m).render

/-- The text of a double with a set number of places. -/
def fixed (places : Nat) (x : Float) : String :=
  (binary64.read x.toBits.toNat).render fun m =>
    let (num, den) := m.fraction
    pointed places (roundDiv (num * pow10 places) den)

end Decimal

end RedundantAudio
