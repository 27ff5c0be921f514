import RedundantAudio.Opus.Packet

/-!
# Voice Activity and In-Band Correction Data

The SILK layer of a frame begins with flags that an entropy coder cannot
compress, so they end up as plain bits at the top of the first byte and
nothing has to be decoded to see them. They come in one group for each
channel, the middle channel before the side channel. A group has one VAD bit
for each SILK frame, one to three of them, and then a single LBRR bit.

A VAD bit says that a SILK frame holds voice. An LBRR bit says that the frame
also carries a coarse copy of the frame before it, which is what in-band
forward error correction means for Opus.

Both flags decide what redundancy is worth. A packet without voice is not
worth sending twice, and a packet with correction data repairs the loss of
its predecessor.

## Main definitions

* `VoiceActivity`: What a packet says about voice.
* `voiceActivity`: Reads the VAD bits of every frame.
* `hasFec`: Reads the LBRR bits of the first frame.
* `isImportant`: Whether a packet is worth repeating.
-/

namespace RedundantAudio

namespace Opus

/-- What the SILK layer of a packet says about voice. -/
inductive VoiceActivity
  /-- No frame holds voice. -/
  | inactive
  /-- Some frame holds voice. -/
  | active
  /-- There is no SILK layer, or the packet cannot be read. -/
  | unknown
  deriving DecidableEq, Repr

/-- The first byte of every frame that has one. -/
def Packet.frameHeads (p : Packet) (data : Bytes) : List UInt8 :=
  p.frames.filterMap fun (offset, size) => if size = 0 then none else data[offset]?

/-- Whether a VAD bit of either channel is set in a frame's first byte. The
    bits of the side channel follow the LBRR bit of the mid channel, so they
    are shifted to the top first. -/
def Toc.hasVoiceBit (toc : Toc) (head : UInt8) : Bool :=
  let n := toc.silkFrames
  head >>> (8 - n) != 0
    || (toc.isStereo && (head <<< (n + 1)) >>> (8 - n) != 0)

/-- Whether an LBRR bit of any channel is set in a frame's first byte. -/
def Toc.hasFecBit (toc : Toc) (head : UInt8) : Bool :=
  let n := toc.silkFrames
  (List.range toc.channels.toNat).any fun channel =>
    head &&& (0x80 >>> ((.ofNat channel + 1) * (n + 1) - 1)) != 0

/-- Reads the VAD bits of every frame. -/
def voiceActivity (data : Bytes) : VoiceActivity :=
  match data with
  | [] => .inactive
  | b :: _ =>
    let toc : Toc := ⟨b⟩
    if toc.isCeltOnly || toc.silkFrames = 0 then .unknown
    else
      match Packet.parse data false with
      | .error _ => .unknown
      | .ok packet =>
        if (packet.frameHeads data).any toc.hasVoiceBit then .active else .inactive

/-- Whether the packet carries correction data for the packet before it. A
    first frame of a single byte cannot. -/
def hasFec (data : Bytes) : Bool :=
  match data with
  | [] => false
  | b :: _ =>
    let toc : Toc := ⟨b⟩
    if toc.isCeltOnly then false
    else
      match Packet.parse data false with
      | .error _ => false
      | .ok packet =>
        match packet.frames with
        | [] => false
        | (offset, size) :: _ =>
          match data[offset]? with
          | none => false
          | some head => size > 1 && toc.silkFrames != 0 && toc.hasFecBit head

/-- Whether a packet is worth repeating. Packets without a SILK layer have no
    VAD bits and are always kept; all others only while they hold voice. -/
def isImportant (data : Bytes) : Bool :=
  match data with
  | [] => false
  | b :: _ => Toc.isCeltOnly ⟨b⟩ || voiceActivity data = .active

end Opus

end RedundantAudio
