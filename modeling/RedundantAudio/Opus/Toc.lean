/-!
# The Table of Contents Byte

Every Opus packet opens with one byte that says how the rest is coded: the
top five bits choose one of 32 configurations, the next bit says mono or
stereo, and the low two bits say how the packet is divided into frames. So
the byte is `8 * configuration + 4 * stereo + division`.

A configuration fixes both the coding mode and the duration of a frame. The
durations are kept here as a count of samples at a given rate, which is the
only way the rest of the library asks for them. The division is exact when
the rate is a multiple of 400 and rounds down otherwise.

## Main definitions

* `Toc`: The byte.
* `Mode`: The three coding modes.
* `FrameCountCode`: The four ways of dividing a packet into frames.
* `Toc.samplesPerFrame`: The duration of a frame at a sample rate.
* `Toc.silkFrames`: How many SILK frames share one Opus frame.
-/

namespace RedundantAudio

namespace Opus

/-- The first byte of an Opus packet. -/
structure Toc where
  /-- The byte as it stands in the packet. -/
  byte : UInt8
  deriving DecidableEq, Repr

/-- The coding mode that a configuration selects. -/
inductive Mode
  /-- Linear prediction alone: configurations 0 to 11. -/
  | silk
  /-- Linear prediction below, transform above: configurations 12 to 15. -/
  | hybrid
  /-- Transform alone: configurations 16 to 31. -/
  | celt
  deriving DecidableEq, Repr

/-- How a packet is divided into frames. -/
inductive FrameCountCode
  /-- One frame. -/
  | one
  /-- Two frames of equal size. -/
  | twoEqual
  /-- Two frames, the size of the first one given. -/
  | twoSized
  /-- A count byte follows that gives the number of frames. -/
  | counted
  deriving DecidableEq, Repr

/-- The number that stands for a division into frames in the low two bits. -/
def FrameCountCode.number : FrameCountCode → UInt8
  | .one => 0
  | .twoEqual => 1
  | .twoSized => 2
  | .counted => 3

namespace Toc

/-- The configuration number, 0 to 31. -/
def config (t : Toc) : UInt8 :=
  t.byte >>> 3

/-- The division into frames. -/
def frameCountCode (t : Toc) : FrameCountCode :=
  match t.byte.toNat % 4 with
  | 0 => .one
  | 1 => .twoEqual
  | 2 => .twoSized
  | _ => .counted

/-- The coding mode of the configuration. -/
def mode (t : Toc) : Mode :=
  if t.config ≤ 11 then .silk
  else if t.config ≤ 15 then .hybrid
  else .celt

/-- Whether the packet has no SILK layer, which the top bit alone decides. -/
def isCeltOnly (t : Toc) : Bool :=
  t.byte &&& 0x80 != 0

/-- Whether the packet holds two channels. -/
def isStereo (t : Toc) : Bool :=
  t.byte &&& 0x04 != 0

/-- The number of channels, one or two. -/
def channels (t : Toc) : UInt8 :=
  if t.isStereo then 2 else 1

/-- The two bits that choose a duration within a mode. -/
def durationIndex (t : Toc) : Nat :=
  t.byte.toNat / 8 % 4

/-- Samples per frame at a rate, rounded down. Transform frames last 2.5, 5,
    10 or 20 ms, hybrid frames 10 or 20 ms, SILK frames 10, 20, 40 or
    60 ms. -/
def samplesPerFrame (t : Toc) (rate : UInt32) : UInt32 :=
  if t.isCeltOnly then
    .ofNat (rate.toNat * Nat.pow 2 t.durationIndex / 400)
  else if t.byte &&& 0x60 = 0x60 then
    if t.byte &&& 0x08 != 0 then .ofNat (rate.toNat / 50) else .ofNat (rate.toNat / 100)
  else if t.durationIndex = 3 then
    .ofNat (rate.toNat * 60 / 1000)
  else
    .ofNat (rate.toNat * Nat.pow 2 t.durationIndex / 100)

/-- How many SILK frames share one Opus frame: one up to 20 ms, two at 40 ms,
    three at 60 ms. -/
def silkFrames (t : Toc) : UInt8 :=
  match max (t.samplesPerFrame 48000 / 48).toNat 10 with
  | 10 | 20 => 1
  | 40 => 2
  | 60 => 3
  | _ => 0

end Toc

end Opus

end RedundantAudio
