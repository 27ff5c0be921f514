import RedundantAudio.Decimal.Binary

/-!
# Comparing Binary Numbers With a Bound

A percentage is compared with bounds that are positive numbers, and the
comparison answers no as soon as one side is not a number. So what lies at
or below a bound and what lies above it do not exhaust the numbers there
are, and a chain of comparisons has a last branch where both kinds meet.

A number is stored as a mantissa and an exponent, scaled so that the larger
exponent wins and mantissas decide between equal ones. `AtMost` says in these
terms what lies at or below a positive bound, and both comparisons are read
off it.

## Main definitions

* `AtMost`: What lies at or below a positive number.
* `IsBound`: A positive number by its mantissa and exponent.

## Theorems

* `AtMost.mono`: A larger bound lets more through.
* `le_bound_iff`, `bound_lt_iff`: What the two comparisons answer.
* `le_bound_of_le_bound`: So a number that passes one bound passes a larger one.
* `not_le_bound_iff`: What is not at or below a bound.
-/

namespace RedundantAudio

namespace Decimal

open Float.Model

/-- What lies at or below a positive number of this mantissa and exponent. -/
def AtMost (mantissa : Nat) (exponent : Int) : UnpackedFloat → Prop
  | .notANumber => False
  | .infinity sign => sign = .negative
  | .zero _ => True
  | .finite .negative _ _ _ => True
  | .finite .positive m e _ => e < exponent ∨ e = exponent ∧ m ≤ mantissa

/-- What lies at or below a number lies at or below every larger one. The exponent counts
    first, since mantissas are normalised. -/
theorem AtMost.mono {m m' : Nat} {e e' : Int} (h : e < e' ∨ e = e' ∧ m ≤ m') (x : UnpackedFloat)
    (hx : AtMost m e x) : AtMost m' e' x := by
  rcases x with _ | _ | _ | ⟨_ | _, k, f, hk⟩
  case finite.positive =>
    change f < e ∨ f = e ∧ k ≤ m at hx
    change f < e' ∨ f = e' ∧ k ≤ m'
    omega
  all_goals exact hx

/-- A number that is stored as a positive mantissa and an exponent. -/
def IsBound (x : Float) (mantissa : Nat) (exponent : Int) : Prop :=
  ∃ h, x.toModel.unpack = .finite .positive mantissa exponent h

/-- The order of the stored numbers is the order of exponents and then mantissas, as far as
    it concerns a positive bound. -/
theorem le_bound_iff {b : Float} {m : Nat} {e : Int} (hb : IsBound b m e) (x : Float) :
    x ≤ b ↔ AtMost m e x.toModel.unpack := by
  rcases hb with ⟨hm, hb⟩
  change decide (x.toModel ≤ b.toModel) = true ↔ _
  rw [decide_eq_true_eq]
  change x.toModel.unpack.le b.toModel.unpack = true ↔ _
  rw [hb]
  -- One case for each kind of number and sign; only the last one compares anything.
  rcases x.toModel.unpack with (_ | _) | _ | _ | ⟨_ | _, m', e', h'⟩
  case infinity.negative => exact iff_of_true rfl rfl
  case infinity.positive => exact iff_of_false Bool.false_ne_true nofun
  case notANumber => exact iff_of_false Bool.false_ne_true id
  case zero => exact iff_of_true rfl trivial
  case finite.negative => exact iff_of_true rfl trivial
  case finite.positive =>
    change ((compare e' e).then (compare m' m)).isLE = true ↔ e' < e ∨ e' = e ∧ m' ≤ m
    rw [Ordering.isLE_then_iff_or, Int.compare_eq_lt, Int.compare_eq_eq, Nat.isLE_compare]

/-- Whatever passes a bound passes every larger one. The two bounds are compared as
    numbers, and what that says of their mantissas and exponents is what the first of
    them has to meet to pass the second. -/
theorem le_bound_of_le_bound {b b' : Float} {m m' : Nat} {e e' : Int} (hb : IsBound b m e)
    (hb' : IsBound b' m' e') (hle : b ≤ b') {x : Float} (hx : x ≤ b) : x ≤ b' := by
  rw [le_bound_iff hb'] at hle ⊢
  rw [le_bound_iff hb] at hx
  rcases hb with ⟨hm, hb⟩
  rw [hb] at hle
  exact hx.mono hle _

theorem isNaN_iff (x : Float) : x.isNaN = true ↔ x.toModel.unpack = .notANumber := by
  change x.toModel.unpack.isNaN = true ↔ _
  cases x.toModel.unpack with
  | notANumber => exact iff_of_true rfl rfl
  | infinity _ => exact iff_of_false Bool.false_ne_true nofun
  | zero _ => exact iff_of_false Bool.false_ne_true nofun
  | finite _ _ _ _ => exact iff_of_false Bool.false_ne_true nofun

/-- Above a bound is what is a number and not at or below it. The strict order is compared
    apart from the other one, since what is not a number is on neither side. -/
theorem bound_lt_iff {b : Float} {m : Nat} {e : Int} (hb : IsBound b m e) (x : Float) :
    b < x ↔ x.toModel.unpack ≠ .notANumber ∧ ¬ AtMost m e x.toModel.unpack := by
  rcases hb with ⟨hm, hb⟩
  change decide (b.toModel < x.toModel) = true ↔ _
  rw [decide_eq_true_eq]
  change b.toModel.unpack.lt x.toModel.unpack = true ↔ _
  rw [hb]
  -- Only a positive number has to be compared by its digits; its kind decides all other
  -- cases.
  rcases x.toModel.unpack with (_ | _) | _ | _ | ⟨_ | _, m', e', h'⟩
  case infinity.negative => exact iff_of_false Bool.false_ne_true fun h => h.2 rfl
  case infinity.positive => exact iff_of_true rfl ⟨nofun, nofun⟩
  case notANumber => exact iff_of_false Bool.false_ne_true fun h => h.1 rfl
  case zero => exact iff_of_false Bool.false_ne_true fun h => h.2 trivial
  case finite.negative => exact iff_of_false Bool.false_ne_true fun h => h.2 trivial
  case finite.positive =>
    refine Iff.trans ?_ (and_iff_right nofun).symm
    change (some ((compare e e').then (compare m m')) == some .lt) = true ↔
      ¬ (e' < e ∨ e' = e ∧ m' ≤ m)
    rw [beq_iff_eq, Option.some.injEq, Ordering.then_eq_lt, Int.compare_eq_lt, Int.compare_eq_eq,
      Nat.compare_eq_lt]
    omega

/-- What is not at or below a bound is above it or not a number. -/
theorem not_le_bound_iff {b : Float} {m : Nat} {e : Int} (hb : IsBound b m e) (x : Float) :
    ¬ x ≤ b ↔ b < x ∨ x.isNaN = true := by
  rw [le_bound_iff hb, bound_lt_iff hb, isNaN_iff]
  by_cases hx : x.toModel.unpack = .notANumber
  · -- What is not a number is at or below nothing.
    rw [hx]
    exact iff_of_true id (Or.inr rfl)
  · simp only [hx, ne_eq, not_false_eq_true, true_and, or_false]

end Decimal

end RedundantAudio
