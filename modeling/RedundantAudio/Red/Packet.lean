import RedundantAudio.Red.Block

/-!
# Building Redundant Packets and Taking Them Apart

All headers come first, then all blocks in the same order. The header of a
redundant block is a word of 32 bits: a one, the payload type in seven bits,
the age of the block in fourteen and its length in ten. The header of the
primary block is a single byte: a zero and the payload type.

The primary block has no length: it takes what is left, and there must be at
least one byte of it. Whether the packet is well formed can thus be settled
on the headers alone, before any block is cut out. `readHeaders` does that
and hands on the bytes behind the headers, so that `cutBlocks` never has to
ask whether they suffice.

A redundant encoding too old for the offset field is left out rather than
refused: the packet is still worth sending without it.

## Main definitions

* `Header`: What a redundant block's header says.
* `encode`: Builds a packet.
* `readHeaders`: Reads all headers.
* `decode`: Takes a packet apart.
* `primaryPayload`: The primary encoding of a packet.
-/

namespace RedundantAudio

namespace Red

/-- What the header of a redundant block says. -/
structure Header where
  /-- The type of the payload. -/
  payloadType : UInt8
  /-- The age of the block in samples, 14 bits. -/
  offset : UInt16
  /-- The length of the block, 10 bits. -/
  length : UInt16
  deriving DecidableEq, Repr

/-- A payload type, cut to the 7 bits that the wire has for it. -/
def wireType (payloadType : UInt8) : UInt8 :=
  payloadType &&& 0x7F

/-- The four bytes of a redundant block's header. The offset shares its second
    byte with the top two bits of the length. -/
def Header.toBytes (h : Header) : Bytes :=
  (0x80 ||| h.payloadType)
    :: (Wire.be16 ((h.offset <<< 2) ||| (h.length >>> 8)) ++ [h.length.toUInt8])

/-- What the four bytes of a redundant block's header say. -/
def Header.ofBytes (a b c d : UInt8) : Header where
  payloadType := wireType a
  offset := Wire.ofBe16 b c >>> 2
  length := ((c &&& 0x03).toUInt16 <<< 8) ||| d.toUInt16

/-- The encodings young enough for the offset field, with their ages. -/
def encodable (timestamp : UInt32) (redundant : List (UInt32 × Bytes)) :
    List (UInt32 × Bytes) :=
  redundant.filterMap fun (time, payload) =>
    if timestamp - time < offsetBound then some (timestamp - time, payload) else none

/-- The size of a packet with this primary encoding and these redundant
    ones. -/
def packetSize (primary : Bytes) (blocks : List (UInt32 × Bytes)) : Nat :=
  primaryHeaderBytes + primary.length
    + Wire.total (blocks.map fun (_, payload) => headerBytes + payload.length)

/-- Builds a packet from the primary encoding and older ones, oldest first,
    each with its media time. -/
def encode (timestamp : UInt32) (primary : Bytes) (redundant : List (UInt32 × Bytes))
    (payloadType : UInt8) : Except Error Bytes := do
  if primary.isEmpty then throw .emptyPrimary
  if primary.length ≥ blockBound || primary.length ≥ payloadLimit then
    throw (.payloadTooLarge primary.length)
  let blocks := encodable timestamp redundant
  if let some (_, payload) := blocks.find? fun (_, payload) => payload.length ≥ blockBound then
    throw (.payloadTooLarge payload.length)
  if packetSize primary blocks > payloadLimit then
    throw (.packetTooLarge (packetSize primary blocks))
  let headers := blocks.flatMap fun (offset, payload) =>
    Header.toBytes ⟨wireType payloadType, offset.toUInt16, .ofNat payload.length⟩
  return headers ++ [wireType payloadType] ++ blocks.flatMap Prod.snd ++ primary

/-- Reads all headers, the last one included, and checks that it announces the
    expected type. The position is only kept to say where a header breaks
    off. The headers come with the bytes behind them. -/
def readHeaders (expected : UInt8) (position : Nat) : Bytes → Except Error (List Header × Bytes)
  | [] => .error .missingPrimaryBlock
  | a :: rest =>
    if a &&& 0x80 = 0 then
      if wireType a = wireType expected then .ok ([], rest)
      else .error (.unexpectedPayloadType (wireType expected) (wireType a))
    else
      match rest with
      | b :: c :: d :: rest => do
        let (headers, body) ← readHeaders expected (position + headerBytes) rest
        return (Header.ofBytes a b c d :: headers, body)
      | _ => .error (.truncatedHeader position)

/-- Cuts the blocks out of the bytes behind the headers. What the headers
    leave over is the primary block. -/
def cutBlocks (timestamp : UInt32) (payloadType : UInt8) : List Header → Bytes → List Block
  | [], body =>
    [{ isLast := true, payloadType, offset := 0, timestamp, payload := body, hasFec := false }]
  | h :: headers, body =>
    { isLast := false
      payloadType := h.payloadType
      offset := h.offset
      timestamp := timestamp - h.offset.toUInt32
      payload := body.take h.length.toNat
      hasFec := false } :: cutBlocks timestamp payloadType headers (body.drop h.length.toNat)

/-- Takes a packet apart, oldest block first and the primary last. The blocks
    announced must leave at least one byte for the primary. -/
def decode (timestamp : UInt32) (data : Bytes) (expected : UInt8) : Except Error (List Block) := do
  let (headers, body) ← readHeaders expected 0 data
  if body.length ≤ Wire.total (headers.map fun h => h.length.toNat) then throw .blockLengthOverrun
  return cutBlocks timestamp (wireType expected) headers body

/-- The primary encoding of a packet. -/
def primaryPayload (timestamp : UInt32) (data : Bytes) (expected : UInt8) :
    Except Error Bytes := do
  let blocks ← decode timestamp data expected
  match blocks.getLast? with
  | some block => return block.payload
  | none => throw .missingPrimaryBlock

end Red

end RedundantAudio
