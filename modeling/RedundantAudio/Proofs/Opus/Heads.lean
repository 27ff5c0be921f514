import Mathlib.Tactic.IntervalCases
import RedundantAudio.Opus.Speech
import RedundantAudio.Proofs.Opus.Division

/-!
# The Bits in the Head of a Frame

The flags of the SILK layer are read with shifts and masks. What they mean is
a matter of places: counted from the top of the first byte, so many VAD bits
of the mid channel, its LBRR bit, and the same again for the side channel.
`bitAt` is a bit by its place, and both readers come down to it.

The side channel is the part that is easy to get wrong. Its bits are moved to
the top by a shift that loses the bits of the mid channel, the LBRR bit among
them, and losing them is what keeps that bit from being taken for voice. With
three SILK frames the flags fill the byte to its last bit, so no shift may go
any further than it does.

## Main definitions

* `bitAt`: A bit of a byte, counted from the top.
* `Toc.IsVad`, `Toc.IsLbrr`: The places of the VAD bits and the LBRR bits.

## Theorems

* `eq_of_bitAt`: A byte is known by its bits.
* `bitAt_shiftLeft`: A shift moves bits to the top.
* `shiftRight_ne_zero_iff`: What is left of a byte in its top bits.
* `mask_ne_zero_iff`: What a mask of one bit leaves.
* `Toc.silkFrames_cases`: The number of SILK frames follows the duration.
* `Toc.hasVoiceBit_iff`, `Toc.hasFecBit_iff`: The readers look at these places.
-/

namespace RedundantAudio

namespace Opus

/-! ### Bits by their place -/

/-- A bit of a byte, counted from the top. -/
def bitAt (b : UInt8) (i : Nat) : Bool :=
  b.toNat.testBit (7 - i)

/-- A byte is below the eighth power of two, in the form that facts about single bits ask
    for. -/
theorem toNat_lt_two_pow (b : UInt8) : b.toNat < 2 ^ 8 :=
  b.toNat_lt

/-- Two bytes with the same eight bits are the same byte. -/
theorem eq_of_bitAt {a b : UInt8} (h : ∀ i < 8, bitAt a i = bitAt b i) : a = b := by
  rw [← UInt8.toNat_inj]
  refine Nat.eq_of_testBit_eq fun j => ?_
  by_cases hj : j < 8
  · have hbit := h (7 - j) (by omega)
    rwa [bitAt, bitAt, show 7 - (7 - j) = j by omega] at hbit
  · -- There is nothing above the top.
    have hlarge : 2 ^ 8 ≤ 2 ^ j := Nat.pow_le_pow_right (by decide) (by omega)
    rw [Nat.testBit_lt_two_pow ((toNat_lt_two_pow a).trans_le hlarge),
      Nat.testBit_lt_two_pow ((toNat_lt_two_pow b).trans_le hlarge)]

/-- A shift to the left moves bits towards the top, and loses the ones that
    were there. -/
theorem bitAt_shiftLeft (b s : UInt8) (i : Nat) (h : i + s.toNat ≤ 7) :
    bitAt (b <<< s) i = bitAt b (i + s.toNat) := by
  have hs : s.toNat % 8 = s.toNat := Nat.mod_eq_of_lt (by omega)
  rw [bitAt, bitAt, UInt8.toNat_shiftLeft, hs, Nat.testBit_mod_two_pow, Nat.testBit_shiftLeft,
    decide_eq_true (by omega : 7 - i < 8), decide_eq_true (by omega : 7 - i ≥ s.toNat),
    Bool.true_and, Bool.true_and, Nat.sub_sub]

/-- A shift to the right that leaves so many bits leaves the top ones. Whether any flag of a
    channel is set is asked of all its bits at once, by such a shift, and this takes it back
    to single bits. -/
theorem shiftRight_ne_zero_iff (b s : UInt8) (count : Nat) (h : s.toNat + count = 8)
    (hcount : 0 < count) : b >>> s ≠ 0 ↔ ∃ i < count, bitAt b i = true := by
  have hzero : b >>> s ≠ 0 ↔ b.toNat >>> s.toNat ≠ 0 := by
    rw [ne_eq, ← UInt8.toNat_inj, UInt8.toNat_shiftRight, Nat.mod_eq_of_lt (by omega)]
    rfl
  rw [hzero]
  constructor
  · intro hne
    rcases Nat.exists_testBit_of_ne_zero hne with ⟨j, hj⟩
    rw [Nat.testBit_shiftRight] at hj
    -- A bit that is set stands within the byte.
    have hlow : s.toNat + j < 8 := by
      by_contra hge
      have hlarge : 2 ^ 8 ≤ 2 ^ (s.toNat + j) := Nat.pow_le_pow_right (by decide) (by omega)
      rw [Nat.testBit_lt_two_pow ((toNat_lt_two_pow b).trans_le hlarge)] at hj
      exact Bool.false_ne_true hj
    refine ⟨7 - (s.toNat + j), by omega, ?_⟩
    rwa [bitAt, show 7 - (7 - (s.toNat + j)) = s.toNat + j by omega]
  · rintro ⟨i, hi, hbit⟩ hzero
    rw [bitAt, show 7 - i = s.toNat + (7 - i - s.toNat) by omega, ← Nat.testBit_shiftRight, hzero,
      Nat.zero_testBit] at hbit
    exact Bool.false_ne_true hbit

/-- A mask with one bit, moved down from the top by so many places, picks out the bit at
    that place. -/
theorem mask_ne_zero_iff (b s : UInt8) (h : s.toNat ≤ 7) :
    b &&& (0x80 >>> s) ≠ 0 ↔ bitAt b s.toNat = true := by
  -- Moved down by `s` places, the top bit stands for a power of two.
  have hmask : (0x80 >>> s : UInt8).toNat = 2 ^ (7 - s.toNat) := by
    rw [UInt8.toNat_shiftRight, Nat.mod_eq_of_lt (by omega), Nat.shiftRight_eq_div_pow]
    exact Nat.pow_div h (Nat.succ_pos 1)
  rw [ne_eq, ← UInt8.toNat_inj, UInt8.toNat_and, hmask, Nat.and_two_pow, bitAt]
  cases b.toNat.testBit (7 - s.toNat) with
  | true => simp
  | false => simp

/-! ### The places of the flags -/

namespace Toc

variable (toc : Toc)

/-- The places of VAD bits: the mid channel has them at the top, and the side
    channel behind the LBRR bit of the mid channel. -/
def IsVad (i : Nat) : Prop :=
  i < toc.silkFrames.toNat ∨
    toc.isStereo = true ∧ toc.silkFrames.toNat < i ∧ i ≤ 2 * toc.silkFrames.toNat

/-- The places of LBRR bits: one behind the VAD bits of each channel. -/
def IsLbrr (i : Nat) : Prop :=
  i = toc.silkFrames.toNat ∨ toc.isStereo = true ∧ i = 2 * toc.silkFrames.toNat + 1

instance : DecidablePred toc.IsVad := fun _ => inferInstanceAs (Decidable (_ ∨ _))

instance : DecidablePred toc.IsLbrr := fun _ => inferInstanceAs (Decidable (_ ∨ _))

/-- In a packet with a SILK layer, one SILK frame lasts 10 or 20 ms, and longer frames hold
    as many of 20 ms as they last. The last configuration of SILK alone has 60 ms, which is
    why there are never more than three. -/
theorem silkFrames_cases (h : toc.isCeltOnly = false) :
    ((toc.samplesPerFrame 48000 = 480 ∨ toc.samplesPerFrame 48000 = 960) ∧ toc.silkFrames = 1) ∨
      (toc.samplesPerFrame 48000 = 1920 ∧ toc.silkFrames = 2) ∨
      (toc.samplesPerFrame 48000 = 2880 ∧ toc.silkFrames = 3) := by
  -- Hybrid frames last 10 or 20 ms, and those of SILK alone 10, 20, 40 or 60 ms.
  have hframe : toc.samplesPerFrame 48000 = 480 ∨ toc.samplesPerFrame 48000 = 960 ∨
      toc.samplesPerFrame 48000 = 1920 ∨ toc.samplesPerFrame 48000 = 2880 := by
    have hindex := durationIndex_lt toc
    rw [samplesPerFrame, h, if_neg Bool.false_ne_true]
    split
    · split <;> decide
    · split
      · decide
      · next hk =>
          generalize toc.durationIndex = k at hindex hk
          have hlow : k < 3 := by omega
          interval_cases k <;> decide
  rw [silkFrames]
  rcases hframe with hlength | hlength | hlength | hlength <;> rw [hlength] <;> decide

/-- There is at least one SILK frame and there are at most three, so that all flags of both
    channels, two times four bits, are found in the first byte. -/
theorem silkFrames_bounds (h : toc.isCeltOnly = false) :
    1 ≤ toc.silkFrames.toNat ∧ toc.silkFrames.toNat ≤ 3 := by
  rcases toc.silkFrames_cases h with ⟨_, hn⟩ | ⟨_, hn⟩ | ⟨_, hn⟩ <;> rw [hn] <;> decide

theorem IsVad.lt {toc : Toc} {i : Nat} (h : toc.IsVad i) (hsilk : toc.isCeltOnly = false) :
    i < 8 := by
  have hn := toc.silkFrames_bounds hsilk
  rw [IsVad] at h
  omega

theorem IsLbrr.lt {toc : Toc} {i : Nat} (h : toc.IsLbrr i) (hsilk : toc.isCeltOnly = false) :
    i < 8 := by
  have hn := toc.silkFrames_bounds hsilk
  rw [IsLbrr] at h
  omega

theorem IsVad.not_isLbrr {toc : Toc} {i : Nat} (h : toc.IsVad i) : ¬ toc.IsLbrr i := by
  rw [IsVad] at h
  rw [IsLbrr]
  omega

/-- The reader of VAD bits looks at their places and at no others. It shifts the byte so
    that the flags of a channel are all that is left, and those of the side channel are
    first moved to the top, over the flags of the mid channel. -/
theorem hasVoiceBit_iff (h : toc.isCeltOnly = false) (head : UInt8) :
    toc.hasVoiceBit head = true ↔ ∃ i, toc.IsVad i ∧ bitAt head i = true := by
  have hn := toc.silkFrames_bounds h
  -- Shifted down by `8 - n`, the top `n` bits are what is left.
  have hleft : (8 - toc.silkFrames).toNat + toc.silkFrames.toNat = 8 := by
    rw [UInt8.toNat_sub_of_le _ _ (UInt8.le_iff_toNat_le.mpr (by change _ ≤ 8; omega))]
    change 8 - _ + _ = 8
    omega
  have hskip : (toc.silkFrames + 1).toNat = toc.silkFrames.toNat + 1 := by
    rw [UInt8.toNat_add]
    change (_ + 1) % 256 = _
    omega
  have hmid := shiftRight_ne_zero_iff head _ _ hleft hn.1
  have hside := shiftRight_ne_zero_iff (head <<< (toc.silkFrames + 1)) _ _ hleft hn.1
  -- What the shift has moved to the top stood behind the mid channel's flags.
  have hmoved : ∀ i < toc.silkFrames.toNat, bitAt (head <<< (toc.silkFrames + 1)) i
      = bitAt head (i + (toc.silkFrames.toNat + 1)) := fun i hi => by
    rw [bitAt_shiftLeft _ _ _ (by omega), hskip]
  simp only [hasVoiceBit, Bool.or_eq_true, Bool.and_eq_true, bne_iff_ne, hmid, hside]
  constructor
  · rintro (⟨i, hi, hbit⟩ | ⟨hstereo, i, hi, hbit⟩)
    · exact ⟨i, Or.inl hi, hbit⟩
    · rw [hmoved i hi] at hbit
      exact ⟨_, Or.inr ⟨hstereo, by omega, by omega⟩, hbit⟩
  · rintro ⟨i, hi | ⟨hstereo, hlow, hhigh⟩, hbit⟩
    · exact Or.inl ⟨i, hi, hbit⟩
    · refine Or.inr ⟨hstereo, i - (toc.silkFrames.toNat + 1), by omega, ?_⟩
      rw [hmoved _ (by omega), Nat.sub_add_cancel hlow]
      exact hbit

/-- The reader of LBRR bits looks at their places and at no others. It computes the place of
    each channel's bit in words of eight bits, where nothing wraps since there are at most
    three SILK frames. -/
theorem hasFecBit_iff (h : toc.isCeltOnly = false) (head : UInt8) :
    toc.hasFecBit head = true ↔ ∃ i, toc.IsLbrr i ∧ bitAt head i = true := by
  have hn := toc.silkFrames_bounds h
  -- The place of the bit of a channel, as it is computed in bytes.
  have hplace : ∀ channel < 2,
      ((.ofNat channel + 1) * (toc.silkFrames + 1) - 1 : UInt8).toNat
        = (channel + 1) * (toc.silkFrames.toNat + 1) - 1 := by
    intro channel hchannel
    rcases toc.silkFrames_cases h with ⟨_, hcount⟩ | ⟨_, hcount⟩ | ⟨_, hcount⟩ <;> rw [hcount] <;>
      interval_cases channel <;> rfl
  have hbit : ∀ channel < 2,
      (head &&& (0x80 >>> ((.ofNat channel + 1) * (toc.silkFrames + 1) - 1)) != 0) = true
        ↔ bitAt head ((channel + 1) * (toc.silkFrames.toNat + 1) - 1) = true := by
    intro channel hchannel
    rw [bne_iff_ne, mask_ne_zero_iff, hplace channel hchannel]
    rw [hplace channel hchannel]
    interval_cases channel <;> omega
  have hmid := hbit 0 (by decide)
  have hside := hbit 1 (by decide)
  rw [Nat.zero_add, Nat.one_mul, Nat.add_sub_cancel] at hmid
  rw [show (1 + 1) * (toc.silkFrames.toNat + 1) - 1 = 2 * toc.silkFrames.toNat + 1 by omega]
    at hside
  rw [hasFecBit, channels]
  cases hstereo : toc.isStereo with
  | false =>
      -- One channel, and one bit.
      refine Iff.trans ?_ (hmid.trans ?_)
      · simp [List.range_succ]
      · simp only [IsLbrr, hstereo, Bool.false_eq_true, false_and, or_false, exists_eq_left]
  | true =>
      refine Iff.trans ?_ ((or_congr hmid hside).trans ?_)
      · simp [List.range_succ]
      · simp only [IsLbrr, hstereo, true_and, or_and_right, exists_or, exists_eq_left]

end Toc

end Opus

end RedundantAudio
