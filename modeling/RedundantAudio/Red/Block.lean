import RedundantAudio.Wire.Bytes

/-!
# Redundant Blocks and Their Limits

A redundant audio packet (RFC 2198) repeats older encodings beside the newest
one. Each encoding in it is a *block*. The newest is the *primary* block and
always comes last; the others are redundant and come oldest first.

The limits of the format follow from its header fields. A redundant block
gives its age in 14 bits and its length in 10 bits, which bounds both. The
transport sets a tighter limit on the packet as a whole.

## Main definitions

* `Block`: One encoding inside a packet.
* `Error`: Why a packet cannot be built or taken apart.
-/

namespace RedundantAudio

namespace Red

/-- A block length has 10 bits, so no block reaches this many bytes. -/
def blockBound : Nat := 1024

/-- The largest audio payload that the transport takes. -/
def payloadLimit : Nat := 1000

/-- A timestamp offset has 14 bits, so no block is this many samples old. -/
def offsetBound : UInt32 := 16384

/-- Bytes in the header of a redundant block. -/
def headerBytes : Nat := 4

/-- Bytes in the header of the primary block. -/
def primaryHeaderBytes : Nat := 1

/-- The media time from one packet to the next, in samples. -/
def packetInterval : UInt32 := 960

/-- Packets between an encoding and the one repeated beside it. -/
def repeatDistance : UInt32 := 2

/-- The most redundant encodings in one packet. -/
def levelLimit : UInt8 := 2

/-- The oldest encoding that is repeated, in packets before the newest. -/
def reach : UInt32 := 5

/-- One encoding inside a redundant packet. -/
structure Block where
  /-- Whether this is the primary block. -/
  isLast : Bool
  /-- The type of the payload, 7 bits on the wire. -/
  payloadType : UInt8
  /-- The age of the block in samples; the primary block has age zero. -/
  offset : UInt16
  /-- The media time of the block. -/
  timestamp : UInt32
  /-- The encoding. -/
  payload : Bytes
  /-- Whether the encoding corrects the packet before it. The receiver finds
      this out; taking a packet apart leaves it unset. -/
  hasFec : Bool
  deriving DecidableEq, Repr

/-- Why a packet cannot be built or taken apart. -/
inductive Error
  /-- There is no primary encoding to send. -/
  | emptyPrimary
  /-- An encoding does not fit the length field, or the packet. -/
  | payloadTooLarge (size : Nat)
  /-- All blocks together exceed what the transport takes. -/
  | packetTooLarge (size : Nat)
  /-- The packet ends inside a header. -/
  | truncatedHeader (offset : Nat)
  /-- The primary block is of another type than agreed. -/
  | unexpectedPayloadType (expected found : UInt8)
  /-- The blocks announced leave nothing for the primary. -/
  | blockLengthOverrun
  /-- The packet ends before the header of the primary block. -/
  | missingPrimaryBlock
  deriving DecidableEq, Repr

/-- The wording of each failure. -/
def Error.message : Error → String
  | .emptyPrimary => "primary payload is empty"
  | .payloadTooLarge size => s!"payload of {size} bytes is too large for RED"
  | .packetTooLarge size => s!"RED packet of {size} bytes exceeds the audio payload limit"
  | .truncatedHeader offset => s!"truncated block header at offset {offset}"
  | .unexpectedPayloadType expected found =>
    s!"primary block payload type {found}, expected {expected}"
  | .blockLengthOverrun => "block lengths leave no room for the primary block"
  | .missingPrimaryBlock => "no primary block header"

end Red

end RedundantAudio
