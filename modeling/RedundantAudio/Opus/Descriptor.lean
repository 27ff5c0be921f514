import RedundantAudio.Opus.Speech

/-!
# Packet Descriptors

Everything that can be told about an Opus packet without decoding it, in one
record: the coding mode, the layout of its frames, its duration at a given
sample rate, and the flags of the SILK layer.

The counts are stored in the narrow words that a report carries them in. The
narrowing loses nothing, because a packet that can be read holds at most 48
frames and no frame is longer than 1275 bytes.

## Main definitions

* `Descriptor`: The record.
* `Descriptor.inspect`: Describes an undelimited packet.
* `Descriptor.duration`: The duration of the whole packet.
-/

namespace RedundantAudio

namespace Opus

/-- What can be told about a packet without decoding it. -/
structure Descriptor where
  /-- The coding mode. -/
  mode : Mode
  /-- The number of frames. -/
  frameCount : UInt8
  /-- The size of each frame in bytes. -/
  frameSizes : List UInt16
  /-- Where each frame begins. -/
  frameOffsets : List Nat
  /-- Where the first frame begins. -/
  payloadOffset : Nat
  /-- The duration of a frame. -/
  samplesPerFrame : UInt32
  /-- The number of channels. -/
  channels : UInt8
  /-- What the VAD bits say. -/
  voice : VoiceActivity
  /-- Whether the packet corrects the one before it. -/
  fec : Bool
  deriving DecidableEq, Repr

namespace Descriptor

/-- Describes an undelimited packet, with durations at a sample rate. -/
def inspect (data : Bytes) (rate : UInt32) : Except PacketError Descriptor := do
  let packet ← Packet.parse data false
  return {
    mode := packet.toc.mode
    frameCount := .ofNat packet.frameCount
    frameSizes := packet.frameSizes.map .ofNat
    frameOffsets := packet.frameOffsets
    payloadOffset := packet.payloadOffset
    samplesPerFrame := packet.toc.samplesPerFrame rate
    channels := packet.toc.channels
    voice := voiceActivity data
    fec := hasFec data }

/-- The duration of the whole packet in samples. -/
def duration (d : Descriptor) : UInt32 :=
  d.samplesPerFrame * d.frameCount.toUInt32

end Descriptor

end Opus

end RedundantAudio
