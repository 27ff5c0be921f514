import RedundantAudio.Wire.Bytes

/-!
# Encoded Frames and Their RTP Form

A frame is what senders and receivers pass on: the payload of one packet, and
the four numbers that go with it. On the wire it is an RTP packet (RFC 3550).
The twelve bytes of the header are

* a byte with the version in the top two bits, a bit each for padding and for
  an extension, and the number of contributing sources in the other four;
* a byte with the marker bit and the payload type;
* the sequence number in two bytes;
* the media time and the identity of the stream, in four bytes each.

Contributing sources may stand between header and payload and are skipped.
Padding and header extensions are refused. Of the first byte only the version
is ever written, and the marker bit is neither written nor kept.

## Main definitions

* `Frame`: One compressed unit of audio.
* `Frame.toBytes`: The RTP packet of a frame.
* `Frame.ofBytes`: The frame of an RTP packet.
-/

namespace RedundantAudio

namespace Rtp

/-- The RTP version on the wire. -/
def version : UInt8 := 2

/-- Bytes in the fixed header. -/
def headerBytes : Nat := 12

/-- One compressed unit of audio. -/
structure Frame where
  /-- Goes up by one from packet to packet, modulo 65536. -/
  sequence : UInt16
  /-- The media time in samples, modulo the width of the field. -/
  timestamp : UInt32
  /-- The identity of the stream. -/
  ssrc : UInt32
  /-- What the payload is, 7 bits on the wire. -/
  payloadType : UInt8
  /-- What is carried: one Opus packet, or several in a redundant packet. -/
  payload : Bytes
  deriving DecidableEq, Repr

/-- Why bytes are not an RTP packet. -/
inductive Error
  /-- The fixed header does not fit. -/
  | tooSmall (length : Nat)
  /-- The version is another one. -/
  | badVersion (version : UInt8)
  /-- The packet is padded or has a header extension. -/
  | unsupportedHeader
  /-- The contributing sources do not fit. -/
  | truncatedSources (count length : Nat)
  deriving DecidableEq, Repr

/-- The wording of each refusal. -/
def Error.message : Error → String
  | .tooSmall length => s!"packet too small: {length} bytes"
  | .badVersion version => s!"invalid RTP version: {version}"
  | .unsupportedHeader => "RTP padding/extension not supported"
  | .truncatedSources count length =>
    s!"packet too small for {count} CSRC entries: {length} bytes"

namespace Frame

/-- A frame whose payload type is cut to the 7 bits of the wire. -/
def ofParts (sequence : UInt16) (timestamp ssrc : UInt32) (payloadType : UInt8)
    (payload : Bytes) : Frame :=
  { sequence, timestamp, ssrc, payloadType := payloadType &&& 0x7F, payload }

/-- The RTP packet of a frame: no padding, no extension, no contributing
    sources and no marker. -/
def toBytes (f : Frame) : Bytes :=
  [version <<< 6, f.payloadType &&& 0x7F]
    ++ Wire.be16 f.sequence ++ Wire.be32 f.timestamp ++ Wire.be32 f.ssrc ++ f.payload

/-- The frame of an RTP packet. -/
def ofBytes (data : Bytes) : Except Error Frame :=
  match data with
  | b0 :: b1 :: s0 :: s1 :: t0 :: t1 :: t2 :: t3 :: r0 :: r1 :: r2 :: r3 :: rest =>
    let count := (b0 &&& 0x0F).toNat
    if b0 >>> 6 ≠ version then .error (.badVersion (b0 >>> 6))
    else if b0 &&& 0x30 ≠ 0 then .error .unsupportedHeader
    else if rest.length < 4 * count then .error (.truncatedSources count data.length)
    else
      .ok {
        sequence := Wire.ofBe16 s0 s1
        timestamp := Wire.ofBe32 t0 t1 t2 t3
        ssrc := Wire.ofBe32 r0 r1 r2 r3
        payloadType := b1 &&& 0x7F
        payload := rest.drop (4 * count) }
  | _ => .error (.tooSmall data.length)

end Frame

end Rtp

end RedundantAudio
