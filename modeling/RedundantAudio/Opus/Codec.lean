import RedundantAudio.Opus.Packet

/-!
# How Many Samples a Codec Yields

The audio itself is the business of an Opus codec, and this library never
looks at a sample that a codec produced. It does depend on how *many* samples
there are, because playout counts time in samples. The codec is therefore
described by its sample counts alone, at 48 kHz and one channel.

Decoding nothing at all conceals the longest packet there can be, 120 ms.
Concealing a loss, or recovering it from the packet after it, always yields
one packet interval of 20 ms. An encoder takes exactly one such interval at a
time.

## Main definitions

* `frameSamples`: Samples in one packet interval.
* `CodecError`: Why a codec refuses its input.
* `decodedSamples`: What decoding a packet yields.
* `fecSamples`: What recovering the packet before this one yields.
* `silencePacket`: A packet of silence.
* `concealedSamples`: What concealing a loss yields.
* `encodableSamples`: What an encoded stretch of samples decodes to.
-/

namespace RedundantAudio

namespace Opus

/-- Samples in one packet interval, 20 ms at 48 kHz. -/
def frameSamples : Nat := 960

/-- Why a codec refuses its input. -/
inductive CodecError
  /-- The packet cannot be decoded. -/
  | decoding
  /-- The packet cannot be used to recover the one before it. -/
  | fecDecoding
  /-- The encoder takes one interval at a time. -/
  | frameSize (actual : Nat)
  deriving DecidableEq, Repr

/-- The wording of each refusal. -/
def CodecError.message : CodecError → String
  | .decoding => "Opus decoding failed"
  | .fecDecoding => "Opus FEC decoding failed"
  | .frameSize actual => s!"invalid frame size: expected {frameSamples}, got {actual}"

/-- What decoding a packet yields: the duration of the packet, or the longest
    one there can be when there is no packet. -/
def decodedSamples (data : Bytes) : Except CodecError Nat :=
  if data.isEmpty then .ok maxPacketSamples.toNat
  else
    match Packet.parse data false with
    | .ok packet => .ok packet.samples
    | .error _ => .error .decoding

/-- What recovering the packet before this one yields. -/
def fecSamples (data : Bytes) : Except CodecError Nat :=
  if data.isEmpty then .ok frameSamples
  else
    match Packet.parse data false with
    | .ok _ => .ok frameSamples
    | .error _ => .error .fecDecoding

/-- The shortest packet of one interval that decodes to silence. -/
def silencePacket : Bytes := [0xF8, 0xFF, 0xFE]

/-- What concealing a loss yields. -/
def concealedSamples : Nat := frameSamples

/-- What an encoded stretch of samples decodes to. -/
def encodableSamples (count : Nat) : Except CodecError Nat :=
  if count = frameSamples then .ok frameSamples else .error (.frameSize count)

end Opus

end RedundantAudio
