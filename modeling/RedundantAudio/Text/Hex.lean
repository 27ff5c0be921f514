/-!
# Digits of Base Sixteen

Ten digits and the first six letters, which are small where digits are
written and may be small or capital where they are read.

## Main definitions

* `hexDigit`: The digit that stands for a number.
* `hexValue`: The number that a digit stands for.
-/

namespace RedundantAudio

namespace Text

/-- The digit that stands for a number below sixteen. -/
def hexDigit (n : Nat) : Char :=
  if n < 10 then .ofNat (48 + n) else .ofNat (87 + n)

/-- The number below sixteen that a digit stands for. -/
def hexValue (c : Char) : Option Nat :=
  if c.isDigit then some (c.toNat - 48)
  else if 'a' ≤ c && c ≤ 'f' then some (c.toNat - 87)
  else if 'A' ≤ c && c ≤ 'F' then some (c.toNat - 55)
  else none

/-- A digit is read as the number that it stands for. -/
theorem hexValue_hexDigit {n : Nat} (h : n < 16) : hexValue (hexDigit n) = some n := by
  have all : ∀ n < 16, hexValue (hexDigit n) = some n := by decide
  exact all n h

end Text

end RedundantAudio
