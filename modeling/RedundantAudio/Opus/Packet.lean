import RedundantAudio.Wire.Bytes
import RedundantAudio.Opus.Toc

/-!
# Packet Framing

An Opus packet is a TOC byte, a few fields that say how the rest is cut into
frames, the frames, and possibly padding. This module reads the fields and
reports where each frame lies; nothing here looks inside a frame.

The reader works in two steps. `Division.read` eats the fields in front of
the frames and returns what they say together with the *body*: the bytes that
are left once the padding at the end is set aside. `Division.frameSizes` then
turns that into the size of every frame. In self-delimited framing one more
size stands in front of the frames, so that the packet can be told apart from
whatever follows it; that size is the last field of the header and belongs to
the second step.

Cutting the padding off before any frame size is read is what keeps the
arithmetic in the natural numbers. A padding count that runs past the end of
the packet is an error of its own, so the length of the body is never
negative, and each size field is read inside the body only.

## Main definitions

* `PacketError`: Why a packet is refused.
* `decodeSize`: A frame size of one or two bytes.
* `readPadding`: The chain of padding counts.
* `Division`: What the fields in front of the frames say.
* `Packet`: Where each frame lies.
* `Packet.parse`: Reads a packet, in either framing.
-/

namespace RedundantAudio

namespace Opus

/-- The largest frame that a packet may carry. -/
def maxFrameBytes : Nat := 1275

/-- A packet holds at most 120 ms, counted in samples at 48 kHz. -/
def maxPacketSamples : UInt32 := 5760

/-- Why a packet is refused. -/
inductive PacketError
  /-- There is not even a TOC byte. -/
  | empty
  /-- Two equal frames cannot share an odd number of bytes. -/
  | oddCbrLength (length : Nat)
  /-- The packet ends inside a frame size. -/
  | missingFrameSize
  /-- A frame is larger than what is left. -/
  | frameSizeOverrun (size remaining : Nat)
  /-- The packet ends before its frame count. -/
  | missingFrameCount
  /-- The frame count is zero. -/
  | zeroFrames
  /-- The frames would last longer than a packet may. -/
  | durationTooLong (samples : UInt32)
  /-- The padding is larger than the packet. -/
  | paddingOverrun
  /-- The sizes given leave less than nothing for the last frame. -/
  | negativeLastFrame
  /-- The bytes cannot be shared out equally. -/
  | unevenCbr (remaining frames : Nat)
  /-- The last frame is larger than a frame may be. -/
  | frameTooLarge (size : Nat)
  deriving DecidableEq, Repr

/-- The wording of each refusal. -/
def PacketError.message : PacketError → String
  | .empty => "empty packet"
  | .oddCbrLength length => s!"code 1 packet with odd payload length {length}"
  | .missingFrameSize => "missing frame length"
  | .frameSizeOverrun size remaining =>
    s!"frame length {size} exceeds remaining {remaining} bytes"
  | .missingFrameCount => "code 3 packet without frame count byte"
  | .zeroFrames => "code 3 packet with zero frames"
  | .durationTooLong samples => s!"packet duration {samples} samples exceeds 120 ms"
  | .paddingOverrun => "padding runs past end of packet"
  | .negativeLastFrame => "frame lengths exceed packet size"
  | .unevenCbr remaining frames =>
    s!"{remaining} bytes cannot be split into {frames} equal frames"
  | .frameTooLarge size => s!"frame of {size} bytes exceeds 1275 byte limit"

/-- Reads a frame size: one byte up to 251, and from 252 on a second byte
    that counts four each. The size comes with the number of bytes it
    took. -/
def decodeSize : Bytes → Option (Nat × Nat)
  | [] => none
  | [a] => if a < 252 then some (a.toNat, 1) else none
  | a :: b :: _ =>
    if a < 252 then some (a.toNat, 1) else some (4 * b.toNat + a.toNat, 2)

/-- The bytes that stand for a frame size. Sizes up to 1275 have such
    bytes. -/
def sizeBytes (size : Nat) : Bytes :=
  if size < 252 then [.ofNat size]
  else [.ofNat (252 + size % 4), .ofNat ((size - 252) / 4)]

/-- Takes one frame size off the front of the body and checks that the bytes
    behind it could hold such a frame. -/
def takeSize (body : Bytes) : Except PacketError (Nat × Bytes) :=
  match decodeSize body with
  | none => .error .missingFrameSize
  | some (size, used) =>
    if size > (body.drop used).length then
      .error (.frameSizeOverrun size (body.drop used).length)
    else
      .ok (size, body.drop used)

/-- Takes several frame sizes off the front of the body. -/
def takeSizes : Nat → Bytes → Except PacketError (List Nat × Bytes)
  | 0, body => .ok ([], body)
  | n + 1, body => do
    let (size, body) ← takeSize body
    let (sizes, body) ← takeSizes n body
    .ok (size :: sizes, body)

/-- Reads the chain of padding counts: 255 stands for 254 bytes of padding
    and says that another count follows. The bytes already counted must fit
    into what is left, at every count. The amount of padding comes with the
    bytes behind the counts, padding included. -/
def readPadding (counted : Nat) : Bytes → Except PacketError (Nat × Bytes)
  | [] => .error .paddingOverrun
  | b :: rest =>
    if rest.length < counted then .error .paddingOverrun
    else if b = 255 then readPadding (counted + 254) rest
    else if rest.length < counted + b.toNat then .error .paddingOverrun
    else .ok (counted + b.toNat, rest)

/-- What the fields in front of the frames say. -/
structure Division where
  /-- How many frames there are. -/
  count : Nat
  /-- Whether all frames have one size. -/
  equal : Bool
  /-- The sizes of the frames before the last one, when they are given. -/
  given : List Nat
  /-- How many bytes of padding end the packet. -/
  padding : Nat
  /-- The bytes behind the fields and in front of the padding. -/
  body : Bytes
  deriving DecidableEq, Repr

namespace Division

/-- What is left of the body for the last frame, when all other sizes are
    given. -/
def lastSize (d : Division) : Nat :=
  d.body.length - Wire.total d.given

/-- Reads the fields of a packet whose count byte gives the number of frames,
    from that count byte on. -/
def readCounted (toc : Toc) : Bytes → Except PacketError Division
  | [] => .error .missingFrameCount
  | countByte :: rest => do
    let count := countByte.toNat % 64
    if count = 0 then throw .zeroFrames
    let duration := toc.samplesPerFrame 48000 * .ofNat count
    if duration > maxPacketSamples then throw (.durationTooLong duration)
    let (padding, rest) ←
      if countByte &&& 0x40 != 0 then readPadding 0 rest else pure (0, rest)
    let body := rest.take (rest.length - padding)
    if countByte &&& 0x80 = 0 then
      return { count, equal := true, given := [], padding, body }
    else
      let (given, rest) ← takeSizes (count - 1) body
      if rest.length < Wire.total given then throw .negativeLastFrame
      return { count, equal := false, given, padding, body := rest }

/-- Reads the fields between the TOC byte and the frames. -/
def read (toc : Toc) (rest : Bytes) : Except PacketError Division :=
  match toc.frameCountCode with
  | .one => .ok { count := 1, equal := false, given := [], padding := 0, body := rest }
  | .twoEqual => .ok { count := 2, equal := true, given := [], padding := 0, body := rest }
  | .twoSized => do
    let (size, body) ← takeSize rest
    .ok { count := 2, equal := false, given := [size], padding := 0, body }
  | .counted => readCounted toc rest

/-- How many frames of one size share the body, or why they cannot. A packet
    of two equal frames and one with a count byte word the failure
    differently. -/
def equalSize (d : Division) (code : FrameCountCode) : Except PacketError Nat :=
  if d.body.length % d.count = 0 then .ok (d.body.length / d.count)
  else if code = .twoEqual then .error (.oddCbrLength d.body.length)
  else .error (.unevenCbr d.body.length d.count)

/-- The size of every frame when the packet ends with its last frame and the
    padding. -/
def undelimitedSizes (d : Division) (code : FrameCountCode) :
    Except PacketError (List Nat) := do
  let last ← if d.equal then d.equalSize code else pure d.lastSize
  if last > maxFrameBytes then throw (.frameTooLarge last)
  return if d.equal then List.replicate d.count last else d.given ++ [last]

/-- The size of every frame when the size of the last one, or of each one if
    they are equal, stands in front of the frames. The bytes behind that size
    come with it. -/
def delimitedSizes (d : Division) : Except PacketError (List Nat × Bytes) := do
  let (size, body) ← takeSize d.body
  if d.equal then
    if size * d.count > body.length then
      throw (.frameSizeOverrun (size * d.count) body.length)
    return (List.replicate d.count size, body)
  else
    let used := d.body.length - body.length
    if used + size > d.lastSize then
      throw (.frameSizeOverrun (used + size) d.lastSize)
    return (d.given ++ [size], body)

end Division

/-- Where the frames of a packet lie. -/
structure Packet where
  /-- The first byte of the packet. -/
  toc : Toc
  /-- The size of each frame. -/
  frameSizes : List Nat
  /-- Where the first frame begins. -/
  payloadOffset : Nat
  /-- How many bytes of padding follow the last frame. -/
  padding : Nat
  deriving DecidableEq, Repr

/-- The offsets of consecutive pieces, the first one given. -/
def offsetsFrom (start : Nat) : List Nat → List Nat
  | [] => []
  | size :: sizes => start :: offsetsFrom (start + size) sizes

namespace Packet

/-- The number of frames. -/
def frameCount (p : Packet) : Nat :=
  p.frameSizes.length

/-- Where each frame begins; a frame begins where the one before it ends. -/
def frameOffsets (p : Packet) : List Nat :=
  offsetsFrom p.payloadOffset p.frameSizes

/-- The offset of each frame, with its size. -/
def frames (p : Packet) : List (Nat × Nat) :=
  p.frameOffsets.zip p.frameSizes

/-- The length of the whole packet, padding included. It is the length of the
    input unless the packet is self-delimited. -/
def length (p : Packet) : Nat :=
  p.payloadOffset + Wire.total p.frameSizes + p.padding

/-- The length of the whole packet in samples at 48 kHz. -/
def samples (p : Packet) : Nat :=
  p.frameCount * (p.toc.samplesPerFrame 48000).toNat

/-- Reads a packet. A self-delimited packet may be followed by other bytes;
    any other packet is the whole input. -/
def parse (data : Bytes) (selfDelimited : Bool) : Except PacketError Packet :=
  match data with
  | [] => .error .empty
  | b :: rest => do
    let toc : Toc := ⟨b⟩
    let division ← Division.read toc rest
    let (frameSizes, body) ←
      if selfDelimited then division.delimitedSizes
      else (·, division.body) <$> division.undelimitedSizes toc.frameCountCode
    let padding := division.padding
    return { toc, frameSizes, padding, payloadOffset := data.length - padding - body.length }

end Packet

end Opus

end RedundantAudio
