import Mathlib.Data.Nat.Bitwise
import RedundantAudio.Wire.Bytes

/-!
# Fields Read Back

Writing a word and reading it again gives the word. Every field of more than
one byte goes through `be16` or `be32`, so the packet formats above this
module never look at a bit of such a field again.

The readers put their bytes together by shifting and disjunction. Bytes do
not overlap, so the disjunctions are sums, and once that is said the rest is
arithmetic with quotients and remainders. `toNat_ofBe16` and `toNat_ofBe32`
are that step; formats that pack several numbers into one field, as the header
of a redundant block does, build on the sums directly.

## Theorems

* `toNat_ofBe16`, `toNat_ofBe32`: What bytes amount to as a number.
* `ofBe16_be16`, `ofBe32_be32`: A word is read back as it was written.
* `be16_ofBe16`, `be32_ofBe32`: Bytes are written back as they were read.
* `and_flag_eq_zero`: A byte whose top bit is clear is below 128.
* `toNat_and_mask`: What a mask of consecutive bits leaves of a byte.
* `total_eq_sum`: What sizes add up to is their sum.
* `total_map_length`: The sizes of pieces add up to the size of the whole.
-/

namespace RedundantAudio

namespace Wire

/-- Two bytes as a number, the first of them counting 256. -/
theorem toNat_ofBe16 (a b : UInt8) : (ofBe16 a b).toNat = 256 * a.toNat + b.toNat := by
  have ha := a.toNat_lt
  have hb := b.toNat_lt
  -- The second byte stands where the first one has left zeros, so or is plus.
  have hor : a.toNat <<< 8 ||| b.toNat = a.toNat <<< 8 + b.toNat :=
    (Nat.shiftLeft_add_eq_or_of_lt (by omega) _).symm
  simp only [ofBe16, UInt16.toNat_or, UInt16.toNat_shiftLeft, UInt8.toNat_toUInt16]
  rw [show (8 : UInt16).toNat % 16 = 8 from rfl]
  simp only [Nat.shiftLeft_eq] at hor ⊢
  rw [Nat.mod_eq_of_lt (by omega), hor]
  omega

theorem ofBe16_be16 (w : UInt16) : ofBe16 (w >>> 8).toUInt8 w.toUInt8 = w := by
  have hw := w.toNat_lt
  rw [← UInt16.toNat_inj, toNat_ofBe16]
  simp only [UInt16.toNat_toUInt8, UInt16.toNat_shiftRight]
  rw [show (8 : UInt16).toNat % 16 = 8 from rfl, Nat.shiftRight_eq_div_pow]
  omega

/-- Four bytes as a number, each counting 256 times the next. The bytes are shifted to their
    places and joined by or, which is addition as long as they do not overlap. -/
theorem toNat_ofBe32 (a b c d : UInt8) :
    (ofBe32 a b c d).toNat
      = 16777216 * a.toNat + 65536 * b.toNat + 256 * c.toNat + d.toNat := by
  have ha := a.toNat_lt
  have hb := b.toNat_lt
  have hc := c.toNat_lt
  have hd := d.toNat_lt
  -- One disjunction at a time, each below the lowest bit of what stands left of it.
  have h1 : a.toNat <<< 24 ||| b.toNat <<< 16 = a.toNat <<< 24 + b.toNat <<< 16 :=
    (Nat.shiftLeft_add_eq_or_of_lt (by rw [Nat.shiftLeft_eq]; omega) _).symm
  have h2 : (256 * a.toNat + b.toNat) <<< 16 ||| c.toNat <<< 8
      = (256 * a.toNat + b.toNat) <<< 16 + c.toNat <<< 8 :=
    (Nat.shiftLeft_add_eq_or_of_lt (by rw [Nat.shiftLeft_eq]; omega) _).symm
  have h3 : (65536 * a.toNat + 256 * b.toNat + c.toNat) <<< 8 ||| d.toNat
      = (65536 * a.toNat + 256 * b.toNat + c.toNat) <<< 8 + d.toNat :=
    (Nat.shiftLeft_add_eq_or_of_lt (by omega) _).symm
  simp only [Nat.shiftLeft_eq] at h1 h2 h3
  simp only [ofBe32, UInt32.toNat_or, UInt32.toNat_shiftLeft, UInt8.toNat_toUInt32]
  rw [show (24 : UInt32).toNat % 32 = 24 from rfl, show (16 : UInt32).toNat % 32 = 16 from rfl,
    show (8 : UInt32).toNat % 32 = 8 from rfl]
  simp only [Nat.shiftLeft_eq]
  rw [Nat.mod_eq_of_lt (by omega), Nat.mod_eq_of_lt (by omega), Nat.mod_eq_of_lt (by omega), h1,
    show a.toNat * 2 ^ 24 + b.toNat * 2 ^ 16 = (256 * a.toNat + b.toNat) * 2 ^ 16 by omega, h2,
    show (256 * a.toNat + b.toNat) * 2 ^ 16 + c.toNat * 2 ^ 8
      = (65536 * a.toNat + 256 * b.toNat + c.toNat) * 2 ^ 8 by omega, h3]
  omega

/-- A number is read from the four bytes that it is written in. -/
theorem ofBe32_be32 (w : UInt32) :
    ofBe32 (w >>> 24).toUInt8 (w >>> 16).toUInt8 (w >>> 8).toUInt8 w.toUInt8 = w := by
  have hw := w.toNat_lt
  rw [← UInt32.toNat_inj, toNat_ofBe32]
  simp only [UInt32.toNat_toUInt8, UInt32.toNat_shiftRight]
  rw [show (24 : UInt32).toNat % 32 = 24 from rfl, show (16 : UInt32).toNat % 32 = 16 from rfl,
    show (8 : UInt32).toNat % 32 = 8 from rfl]
  simp only [Nat.shiftRight_eq_div_pow]
  omega

/-- Two bytes are what the number that they stand for is written in. -/
theorem be16_ofBe16 (a b : UInt8) : be16 (ofBe16 a b) = [a, b] := by
  have ha := a.toNat_lt
  have hb := b.toNat_lt
  have hhigh : (ofBe16 a b >>> 8).toUInt8 = a := by
    rw [← UInt8.toNat_inj, UInt16.toNat_toUInt8, UInt16.toNat_shiftRight, toNat_ofBe16,
      show (8 : UInt16).toNat % 16 = 8 from rfl, Nat.shiftRight_eq_div_pow]
    omega
  have hlow : (ofBe16 a b).toUInt8 = b := by
    rw [← UInt8.toNat_inj, UInt16.toNat_toUInt8, toNat_ofBe16]
    omega
  rw [be16, hhigh, hlow]

/-- Four bytes are what the number that they stand for is written in. -/
theorem be32_ofBe32 (a b c d : UInt8) : be32 (ofBe32 a b c d) = [a, b, c, d] := by
  have ha := a.toNat_lt
  have hb := b.toNat_lt
  have hc := c.toNat_lt
  have hd := d.toNat_lt
  -- A byte is what is left of the number when it is moved down and cut.
  have hbyte (s : UInt32) (k : Nat) (x : UInt8) (hs : s.toNat % 32 = k)
      (hx : (16777216 * a.toNat + 65536 * b.toNat + 256 * c.toNat + d.toNat) / 2 ^ k % 256
        = x.toNat) : (ofBe32 a b c d >>> s).toUInt8 = x := by
    rw [← UInt8.toNat_inj, UInt32.toNat_toUInt8, UInt32.toNat_shiftRight, toNat_ofBe32, hs,
      Nat.shiftRight_eq_div_pow]
    exact hx
  have hlow : (ofBe32 a b c d).toUInt8 = d := by
    rw [← UInt8.toNat_inj, UInt32.toNat_toUInt8, toNat_ofBe32]
    omega
  rw [be32, hbyte 24 24 a rfl (by omega), hbyte 16 16 b rfl (by omega), hbyte 8 8 c rfl (by omega),
    hlow]

/-- The top bit of a byte, which several headers use as a flag, is clear
    exactly below 128. -/
theorem and_flag_eq_zero (a : UInt8) : a &&& 0x80 = 0 ↔ a.toNat < 128 := by
  have ha := a.toNat_lt
  rw [← UInt8.toNat_inj, UInt8.toNat_and, show (0x80 : UInt8).toNat = 2 ^ 7 from rfl,
    show (0 : UInt8).toNat = 0 from rfl, Nat.and_two_pow, Nat.testBit_eq_decide_div_mod_eq]
  by_cases h : a.toNat < 128
  · rw [Nat.div_eq_of_lt (by omega)]
    simp [h]
  · rw [show a.toNat / 2 ^ 7 = 1 by omega]
    simp [h]

theorem toNat_flag_or (a : UInt8) (h : a.toNat < 128) : (0x80 ||| a).toNat = 128 + a.toNat := by
  rw [UInt8.toNat_or]
  exact (Nat.two_pow_add_eq_or_of_lt (i := 7) h 1).symm

/-- A mask of consecutive bits, as an operation on numbers of any size. -/
theorem and_mask (a width place : Nat) :
    a &&& (2 ^ width - 1) * 2 ^ place = a / 2 ^ place % 2 ^ width * 2 ^ place := by
  refine Nat.eq_of_testBit_eq fun i => ?_
  rw [Nat.testBit_and, Nat.testBit_mul_two_pow, Nat.testBit_mul_two_pow, Nat.testBit_mod_two_pow,
    Nat.testBit_div_two_pow, Nat.testBit_two_pow_sub_one]
  by_cases h : place ≤ i
  · simp only [h, decide_true, Bool.true_and, Bool.and_comm, Nat.sub_add_cancel h]
  · simp only [h, decide_false, Bool.false_and, Bool.and_false]

/-- A mask of consecutive bits leaves the number that they stand for, in its
    place. -/
theorem toNat_and_mask (a mask : UInt8) (width place : Nat)
    (h : mask.toNat = (2 ^ width - 1) * 2 ^ place) :
    (a &&& mask).toNat = a.toNat / 2 ^ place % 2 ^ width * 2 ^ place := by
  rw [UInt8.toNat_and, h, and_mask]

theorem toNat_and_low7 (a : UInt8) : (a &&& 0x7F).toNat = a.toNat % 128 := by
  have hmask := toNat_and_mask a 0x7F 7 0 rfl
  rwa [Nat.pow_zero, Nat.div_one, Nat.mul_one] at hmask

theorem total_eq_sum (xs : List Nat) : total xs = xs.sum := by
  induction xs with
  | nil => rfl
  | cons x xs ih =>
      rw [total, ih, List.sum_cons]

theorem total_reverse (xs : List Nat) : total xs.reverse = total xs := by
  rw [total_eq_sum, total_eq_sum, List.sum_reverse]

/-- No length is more than all of them together. -/
theorem le_total_of_mem {x : Nat} {xs : List Nat} (h : x ∈ xs) : x ≤ total xs := by
  induction xs with
  | nil => simp only [List.not_mem_nil] at h
  | cons y xs ih =>
      rw [total]
      rcases List.mem_cons.mp h with heq | hrest
      · omega
      · have := ih hrest
        omega

theorem total_map_length (pieces : List Bytes) :
    total (pieces.map List.length) = pieces.flatten.length := by
  rw [total_eq_sum, List.length_flatten]

end Wire

end RedundantAudio
