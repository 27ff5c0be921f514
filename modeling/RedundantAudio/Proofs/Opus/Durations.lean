import RedundantAudio.Opus.Descriptor
import RedundantAudio.Proofs.Opus.Framing

/-!
# Numbers that Fit Their Words

A descriptor keeps the number of frames in a byte, the size of each in two, and
all that has to do with time in four. Nothing checks whether these are wide
enough. They are, because the packet was read: a packet lasts 120 ms at most,
a frame no less than 2.5 ms, and no size that the format can write is above
1275.

The limit of 120 ms is looked at in one place only, where a count byte is read.
Without a count byte there are two frames at most, and two of the longest ones
just reach it. So the limit holds of every `Framing`, and with it of both
readers.

Durations are told in samples of an arbitrary rate. Their number is computed in
a word of 64 bits, cut to one of 32, and multiplied there by the number of
frames. `Toc.wordSamples` is the first step with all its wrapping, and
`Toc.exactSamples` the same in numbers that have no end. No frame lasts as long
as a second, so the two agree at every rate, and nothing is lost in the cut.

## Main definitions

* `Toc.frameMicros`: How long a frame of each configuration lasts.
* `Toc.exactSamples`, `Toc.wordSamples`: The samples of a frame, in numbers of
  any size and in words of 64 bits.
* `Descriptor.Faithful`: A descriptor says what the packet is.

## Theorems

* `Toc.toNat_wordSamples`, `Toc.toNat_samplesPerFrame`: Words do not wrap.
* `Toc.exactSamples_eq`: The samples of a frame are its duration.
* `Framing.samples_le`, `Framing.count_le`: How long a packet is, and how many
  frames it has.
* `Framing.samples_le_of_rate`: How long it is at any rate.
* `Descriptor.faithful_inspect`: Nothing is lost in a descriptor.
* `numbers_fit`: The bounds of every packet that is read, and what follows.
-/

namespace RedundantAudio

namespace Opus

/-! ### Durations -/

namespace Toc

variable (t : Toc)

/-- How long a frame lasts, in microseconds. A mode has two or four durations,
    and its configurations go through them in order. -/
def frameMicros : Nat :=
  match t.mode with
  | .silk => [10000, 20000, 40000, 60000].getD (t.config.toNat % 4) 0
  | .hybrid => [10000, 20000].getD (t.config.toNat % 2) 0
  | .celt => [2500, 5000, 10000, 20000].getD (t.config.toNat % 4) 0

/-- Samples per frame at a rate, in numbers of any size. -/
def exactSamples (rate : Nat) : Nat :=
  if t.isCeltOnly then rate * 2 ^ t.durationIndex / 400
  else if t.byte &&& 0x60 = 0x60 then if t.byte &&& 0x08 != 0 then rate / 50 else rate / 100
  else if t.durationIndex = 3 then rate * 60 / 1000
  else rate * 2 ^ t.durationIndex / 100

/-- Samples per frame at a rate, in words of 64 bits that wrap. -/
def wordSamples (rate : UInt32) : UInt64 :=
  let rate := rate.toUInt64
  let size := ((t.byte >>> 3) &&& 0x03).toUInt64
  if t.isCeltOnly then (rate <<< size) / 400
  else if t.byte &&& 0x60 = 0x60 then if t.byte &&& 0x08 != 0 then rate / 50 else rate / 100
  else if size = 3 then rate * 60 / 1000
  else (rate <<< size) / 100

theorem toNat_config : t.config.toNat = t.byte.toNat / 8 := by
  rw [config, UInt8.toNat_shiftRight]
  exact Nat.shiftRight_eq_div_pow _ 3

theorem isCeltOnly_iff : t.isCeltOnly = true ↔ 16 ≤ t.config.toNat := by
  rw [isCeltOnly, bne_iff_ne, ne_eq, Wire.and_flag_eq_zero, toNat_config]
  omega

/-- The two bits below the top mark configurations 12 to 15 of each half. Only those of the
    lower half are asked for, as the upper half has been told apart by then. -/
theorem isHybrid_iff : t.byte &&& 0x60 = 0x60 ↔ t.config.toNat / 4 % 4 = 3 := by
  rw [← UInt8.toNat_inj, Wire.toNat_and_mask t.byte 0x60 2 5 rfl, toNat_config]
  change t.byte.toNat / 32 % 4 * 32 = 96 ↔ _
  omega

theorem isOdd_iff : (t.byte &&& 0x08 != 0) = true ↔ t.config.toNat % 2 = 1 := by
  rw [bne_iff_ne, ne_eq, ← UInt8.toNat_inj, Wire.toNat_and_mask t.byte 0x08 1 3 rfl, toNat_config]
  change ¬ t.byte.toNat / 8 % 2 * 8 = 0 ↔ _
  omega

/-- The mode is told by the configuration, and the readers tell it by single
    bits. -/
theorem mode_eq :
    t.mode = if t.isCeltOnly then .celt else if t.byte &&& 0x60 = 0x60 then .hybrid else .silk := by
  have hbyte := t.byte.toNat_lt
  have hconfig := t.toNat_config
  have hsilk : t.config ≤ 11 ↔ t.config.toNat ≤ 11 := UInt8.le_iff_toNat_le
  have hhybrid : t.config ≤ 15 ↔ t.config.toNat ≤ 15 := UInt8.le_iff_toNat_le
  simp only [mode, isCeltOnly_iff, isHybrid_iff, hsilk, hhybrid]
  by_cases hcelt : 16 ≤ t.config.toNat
  · rw [if_neg (by omega), if_neg (by omega), if_pos hcelt]
  · rw [if_neg hcelt]
    -- In the lower half, hybrid configurations are the last four.
    by_cases hboth : t.config.toNat / 4 % 4 = 3
    · rw [if_neg (by omega), if_pos (by omega), if_pos hboth]
    · rw [if_pos (by omega), if_neg hboth]

theorem durationIndex_eq : t.durationIndex = t.config.toNat % 4 := by
  rw [durationIndex, toNat_config]

/-- The duration, by the bits that the samples are computed from. The table of durations
    goes by configurations, and the readers take single bits of the byte; in this form the
    two can be compared, and the samples come out as rate times duration. -/
theorem frameMicros_eq :
    t.frameMicros
      = if t.isCeltOnly then 2500 * 2 ^ t.durationIndex
        else if t.byte &&& 0x60 = 0x60 then if t.byte &&& 0x08 != 0 then 20000 else 10000
        else if t.durationIndex = 3 then 60000
        else 10000 * 2 ^ t.durationIndex := by
  have hindex := durationIndex_lt t
  rw [frameMicros, mode_eq, ← durationIndex_eq]
  simp only [isOdd_iff]
  generalize t.durationIndex = k at hindex
  by_cases hcelt : t.isCeltOnly = true
  · simp only [if_pos hcelt]
    interval_cases k <;> rfl
  · simp only [if_neg hcelt]
    by_cases hhybrid : t.byte &&& 0x60 = 0x60
    · simp only [if_pos hhybrid]
      -- Hybrid frames have two durations, each of them twice in a row of four.
      rcases Nat.mod_two_eq_zero_or_one t.config.toNat with heven | hodd
      · rw [heven]
        rfl
      · rw [hodd]
        rfl
    · simp only [if_neg hhybrid]
      interval_cases k <;> rfl

/-- No frame is longer than 60 ms or shorter than 2.5 ms. -/
theorem frameMicros_bounds : 2500 ≤ t.frameMicros ∧ t.frameMicros ≤ 60000 := by
  have hindex := durationIndex_lt t
  rw [frameMicros_eq]
  generalize t.durationIndex = k at hindex
  split_ifs <;> interval_cases k <;> omega

/-- All durations are multiples of 2.5 ms. -/
theorem dvd_frameMicros : 2500 ∣ t.frameMicros := by
  rw [frameMicros_eq]
  split_ifs
  · exact Nat.dvd_mul_right _ _
  · decide
  · decide
  · decide
  · exact Nat.dvd_mul_right_of_dvd (by decide) _

theorem two_pow_durationIndex_le : 2 ^ t.durationIndex ≤ 8 :=
  Nat.pow_le_pow_right (n := 2) (by decide) (Nat.le_of_lt_succ (durationIndex_lt t))

theorem toNat_size : ((t.byte >>> 3) &&& 0x03).toUInt64.toNat = t.durationIndex := by
  have hmask := Wire.toNat_and_mask (t.byte >>> 3) 0x03 2 0 rfl
  rwa [Nat.pow_zero, Nat.div_one, Nat.mul_one, ← UInt8.toNat_toUInt64, ← config,
    show 2 ^ 2 = 4 from rfl, ← durationIndex_eq] at hmask

/-- The shift that stands for a multiplication loses nothing. -/
theorem toNat_shifted (rate : UInt32) :
    (rate.toUInt64 <<< ((t.byte >>> 3) &&& 0x03).toUInt64).toNat
      = rate.toNat * 2 ^ t.durationIndex := by
  have hrate := rate.toNat_lt
  have hindex := durationIndex_lt t
  have hproduct : rate.toNat * 2 ^ t.durationIndex ≤ rate.toNat * 8 :=
    Nat.mul_le_mul_left _ t.two_pow_durationIndex_le
  rw [UInt64.toNat_shiftLeft, toNat_size, UInt32.toNat_toUInt64, Nat.shiftLeft_eq,
    Nat.mod_eq_of_lt (show t.durationIndex < 64 by omega), Nat.mod_eq_of_lt (by omega)]

/-- No step in words of 64 bits wraps. A rate has 32 bits and is multiplied by 60 at most,
    or shifted by three places, so each branch agrees with the same branch in plain numbers. -/
theorem toNat_wordSamples (rate : UInt32) :
    (t.wordSamples rate).toNat = t.exactSamples rate.toNat := by
  have hrate := rate.toNat_lt
  have hshifted := t.toNat_shifted rate
  have hsize : ((t.byte >>> 3) &&& 0x03).toUInt64 = 3 ↔ t.durationIndex = 3 := by
    rw [← UInt64.toNat_inj, toNat_size]
    rfl
  rw [wordSamples, exactSamples]
  simp only [hsize]
  split_ifs
  · rw [UInt64.toNat_div, hshifted]
    rfl
  · rw [UInt64.toNat_div, UInt32.toNat_toUInt64]
    rfl
  · rw [UInt64.toNat_div, UInt32.toNat_toUInt64]
    rfl
  · rw [UInt64.toNat_div, UInt64.toNat_mul, UInt32.toNat_toUInt64]
    -- Sixty times a rate of 32 bits is well within 64.
    change rate.toNat * 60 % 2 ^ 64 / 1000 = _
    omega
  · rw [UInt64.toNat_div, hshifted]
    rfl

/-- The samples of a frame are its duration, rounded down. The branches divide by different
    numbers and shift or multiply, depending on the kind of coding, but all come to the
    same. -/
theorem exactSamples_eq (rate : Nat) : t.exactSamples rate = rate * t.frameMicros / 1000000 := by
  -- A factor may be put on both sides of a quotient.
  have hscale (k m n : Nat) (hk : 0 < k) : rate * m / n = rate * (k * m) / (n * k) := by
    rw [Nat.mul_left_comm, Nat.mul_comm n, Nat.mul_div_mul_left _ _ hk]
  rw [exactSamples, frameMicros_eq]
  split_ifs
  · exact hscale 2500 _ 400 (by decide)
  · -- With the durations written out, both quotients are by numbers.
    omega
  · omega
  · omega
  · exact hscale 10000 _ 100 (by decide)

/-- A second holds more than 16 of the longest frames, so a frame has fewer
    samples than the rate says. -/
theorem exactSamples_lt (rate : UInt32) : t.exactSamples rate.toNat < 2 ^ 32 := by
  have hrate := rate.toNat_lt
  have hlong : rate.toNat * t.frameMicros ≤ rate.toNat * 60000 :=
    Nat.mul_le_mul_left _ t.frameMicros_bounds.2
  rw [exactSamples_eq]
  omega

/-- The samples that a reader tells are the exact ones: the word of 32 bits holds them. -/
theorem toNat_samplesPerFrame (rate : UInt32) :
    (t.samplesPerFrame rate).toNat = t.exactSamples rate.toNat := by
  have hexact : t.samplesPerFrame rate = .ofNat (t.exactSamples rate.toNat) := by
    rw [samplesPerFrame, exactSamples]
    split_ifs <;> rfl
  rw [hexact]
  exact UInt32.toNat_ofNat_of_lt' (t.exactSamples_lt rate)

/-- The word that is cut to 32 bits in the end has no more. -/
theorem samplesPerFrame_eq (rate : UInt32) :
    t.samplesPerFrame rate = (t.wordSamples rate).toUInt32 := by
  rw [← UInt32.toNat_inj, toNat_samplesPerFrame, UInt64.toNat_toUInt32, toNat_wordSamples,
    Nat.mod_eq_of_lt (t.exactSamples_lt rate)]

end Toc

/-! ### Packets -/

namespace Framing

variable (f : Framing)

/-- A packet lasts 120 ms at most. Only a count byte could say more, and there
    the limit is checked. -/
theorem samples_le : f.frames.length * (f.toc.samplesPerFrame 48000).toNat ≤ 5760 := by
  have hone := samplesPerFrame_le f.toc
  have hframed := f.framed
  -- The framing carries its proof, whose cases are the forms of a packet.
  generalize f.fields = fields, f.frames = frames, f.padding = padding at hframed
  cases hframed with
  | one a _ =>
      rw [List.length_singleton]
      omega
  | twoEqual a b _ _ =>
      change 2 * _ ≤ _
      omega
  | twoSized a b _ =>
      change 2 * _ ≤ _
      omega
  | countedEqual _ _ _ _ _ _ hcount _ _ _ => exact hcount.duration_le
  | countedSized _ _ _ _ _ _ hcount _ _ => exact hcount.duration_le

/-- At 48 kHz samples tell durations exactly, so 5760 of them are 120 ms. -/
theorem micros_le : f.frames.length * f.toc.frameMicros ≤ 120000 := by
  have hall := f.samples_le
  have hrate : (48000 : UInt32).toNat = 48000 := rfl
  obtain ⟨m, hm⟩ := f.toc.dvd_frameMicros
  -- So many times 2.5 ms are so many times 120 samples.
  have hone : 48000 * (2500 * m) / 1000000 = 120 * m := by omega
  rw [Toc.toNat_samplesPerFrame, Toc.exactSamples_eq, hrate, hm, hone, Nat.mul_left_comm] at hall
  rw [hm, Nat.mul_left_comm]
  omega

/-- The shortest frames last 2.5 ms, and 48 of them fill a packet. -/
theorem count_le : f.frames.length ≤ 48 := by
  have hall := f.micros_le
  have hfew : f.frames.length * 2500 ≤ f.frames.length * f.toc.frameMicros :=
    Nat.mul_le_mul_left _ f.toc.frameMicros_bounds.1
  omega

/-- In 120 ms so many samples go by at a rate, and a packet has no more. Each frame is
    rounded down by itself, which can only make the sum smaller. -/
theorem samples_le_of_rate (rate : UInt32) :
    f.frames.length * (f.toc.samplesPerFrame rate).toNat ≤ rate.toNat * 120 / 1000 := by
  rw [Toc.toNat_samplesPerFrame, Toc.exactSamples_eq]
  calc f.frames.length * (rate.toNat * f.toc.frameMicros / 1000000)
      ≤ f.frames.length * (rate.toNat * f.toc.frameMicros) / 1000000 :=
        Nat.mul_div_le_mul_div_assoc _ _ _
    _ = rate.toNat * (f.frames.length * f.toc.frameMicros) / 1000000 := by
        rw [Nat.mul_left_comm]
    _ ≤ rate.toNat * 120000 / 1000000 :=
        Nat.div_le_div_right (Nat.mul_le_mul_left _ f.micros_le)
    _ = rate.toNat * 120 / 1000 := by omega

end Framing

/-- Either reader reports the frames of a packet. -/
theorem exists_framing_of_parse {data : Bytes} {selfDelimited : Bool} {p : Packet}
    (h : Packet.parse data selfDelimited = .ok p) :
    ∃ f : Framing, p.toc = f.toc ∧ p.frameSizes = f.frames.map List.length := by
  cases selfDelimited with
  | false =>
      rcases (parse_undelimited_iff data p).mp h with ⟨f, _, rfl⟩
      exact ⟨f, rfl, rfl⟩
  | true =>
      rcases (parse_delimited_iff data p).mp h with ⟨f, _, _, rfl⟩
      exact ⟨f, rfl, rfl⟩

/-! ### Descriptors -/

namespace Descriptor

/-- A descriptor says what the packet is. Its counts are those of the packet,
    and its durations those of the frames, although both are kept in words. -/
structure Faithful (p : Packet) (rate : UInt32) (d : Descriptor) : Prop where
  frameCount_eq : d.frameCount.toNat = p.frameCount
  frameSizes_eq : d.frameSizes.map UInt16.toNat = p.frameSizes
  samplesPerFrame_eq : d.samplesPerFrame.toNat = rate.toNat * p.toc.frameMicros / 1000000
  duration_eq : d.duration.toNat = d.frameCount.toNat * d.samplesPerFrame.toNat
  duration_le : d.duration.toNat ≤ rate.toNat * 120 / 1000

/-- From a packet that is read, a faithful descriptor is made at any rate. No count is cut
    to its word and no product wraps, because a packet has few frames and lasts 120 ms at
    most. -/
theorem faithful_inspect {data : Bytes} {p : Packet} (h : Packet.parse data false = .ok p)
    (rate : UInt32) : ∃ d, inspect data rate = .ok d ∧ Faithful p rate d := by
  rcases exists_framing_of_parse h with ⟨f, htoc, hsizes⟩
  have hrate := rate.toNat_lt
  have hlength : p.frameCount = f.frames.length := by
    rw [Packet.frameCount, hsizes, List.length_map]
  have hfew := f.count_le
  have hshort := f.samples_le_of_rate rate
  rw [← hlength, ← htoc] at hshort
  rw [← hlength] at hfew
  -- At most 48 frames fit a byte.
  have hcount : (UInt8.ofNat p.frameCount).toNat = p.frameCount :=
    UInt8.toNat_ofNat_of_lt' (by change _ < 256; omega)
  -- And 120 ms at any rate of 32 bits fit a word of 32 bits.
  have hduration : (p.toc.samplesPerFrame rate * (UInt8.ofNat p.frameCount).toUInt32).toNat
      = p.frameCount * (p.toc.samplesPerFrame rate).toNat := by
    rw [UInt32.toNat_mul, UInt8.toNat_toUInt32, hcount, Nat.mul_comm, Nat.mod_eq_of_lt (by omega)]
  refine ⟨_, by rw [inspect, h]; rfl, hcount, ?_, ?_, ?_, ?_⟩
  · rw [hsizes, List.map_map, List.map_map]
    refine List.map_congr_left fun a ha => UInt16.toNat_ofNat_of_lt' ?_
    have hsmall : a.length ≤ 1275 := f.small a ha
    change _ < 65536
    omega
  · change (p.toc.samplesPerFrame rate).toNat = _
    rw [Toc.toNat_samplesPerFrame, Toc.exactSamples_eq]
  · change _ = (UInt8.ofNat p.frameCount).toNat * _
    rw [hcount]
    exact hduration
  · rw [duration, hduration]
    exact hshort

end Descriptor

/-- A packet that is read, in either framing, has 1 to 48 frames of at most 1275 bytes that
    last 120 ms at most. So all that a descriptor keeps of it fits its words: the counts are
    not cut, and at no rate does a duration wrap. The bound on the duration is checked by
    the reader only where a count byte could exceed it; the other packets keep to it anyway. -/
theorem numbers_fit (data : Bytes) (selfDelimited : Bool) (p : Packet)
    (h : Packet.parse data selfDelimited = .ok p) :
    1 ≤ p.frameCount ∧ p.frameCount ≤ 48 ∧ (∀ size ∈ p.frameSizes, size ≤ 1275) ∧
      p.frameCount * (p.toc.samplesPerFrame 48000).toNat ≤ 5760 ∧
      ∀ rate : UInt32,
        p.toc.samplesPerFrame rate = (p.toc.wordSamples rate).toUInt32 ∧
        (p.toc.wordSamples rate).toNat = rate.toNat * p.toc.frameMicros / 1000000 ∧
        (p.toc.samplesPerFrame rate).toNat = rate.toNat * p.toc.frameMicros / 1000000 ∧
        p.frameCount * (p.toc.samplesPerFrame rate).toNat ≤ rate.toNat * 120 / 1000 ∧
        (selfDelimited = false →
          ∃ d, Descriptor.inspect data rate = .ok d ∧ d.Faithful p rate) := by
  rcases exists_framing_of_parse h with ⟨f, htoc, hsizes⟩
  have hlength : p.frameCount = f.frames.length := by
    rw [Packet.frameCount, hsizes, List.length_map]
  rw [hlength, htoc]
  -- What holds of the framing holds of what was read, whichever reader it was.
  refine ⟨List.length_pos_iff.mpr f.framed.frames_ne_nil, f.count_le, ?_, f.samples_le,
    fun rate => ⟨Toc.samplesPerFrame_eq _ rate, ?_, ?_, f.samples_le_of_rate rate, ?_⟩⟩
  · rw [hsizes]
    exact List.forall_mem_map.mpr f.small
  · rw [Toc.toNat_wordSamples, Toc.exactSamples_eq]
  · rw [Toc.toNat_samplesPerFrame, Toc.exactSamples_eq]
  · rintro rfl
    exact Descriptor.faithful_inspect h rate

/-- A packet of 48 empty frames is full, and at the highest rate it still has fewer samples
    than a second would. With its size in front, it is the same in a stream, where a byte
    that does not belong to it may follow. -/
theorem numbers_fit_full :
    Packet.parse [0x83, 48] false = .ok ⟨⟨0x83⟩, List.replicate 48 0, 2, 0⟩ ∧
      (∃ d, Descriptor.inspect [0x83, 48] 4294967295 = .ok d ∧ d.frameCount = 48 ∧
        d.duration = 515396064) ∧
      Packet.parse [0x83, 48, 0, 7] true = .ok ⟨⟨0x83⟩, List.replicate 48 0, 3, 0⟩ ∧
      48 * (Toc.samplesPerFrame ⟨0x83⟩ 48000).toNat ≤ 5760 := by
  have halone : Packet.parse [0x83, 48] false = .ok ⟨⟨0x83⟩, List.replicate 48 0, 2, 0⟩ := by
    decide +kernel
  have hstream : Packet.parse [0x83, 48, 0, 7] true
      = .ok ⟨⟨0x83⟩, List.replicate 48 0, 3, 0⟩ := by
    decide +kernel
  rcases (numbers_fit _ false _ halone).2.2.2.2 4294967295 with ⟨_, _, _, _, hinspect⟩
  rcases hinspect rfl with ⟨d, hd, hfaithful⟩
  refine ⟨halone, ⟨d, hd, ?_, ?_⟩, hstream, (numbers_fit _ true _ hstream).2.2.2.1⟩
  · rw [← UInt8.toNat_inj, hfaithful.frameCount_eq]
    rfl
  · rw [← UInt32.toNat_inj, hfaithful.duration_eq, hfaithful.frameCount_eq,
      hfaithful.samplesPerFrame_eq]
    rfl

end Opus

end RedundantAudio
